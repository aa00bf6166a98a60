/-
**The device's state as a configuration** (`dump.py`).

What was observed becomes the routes, the channel settings and the global settings that would bring it about:
the inverse of `mixMessages`, `channelEntries` and `globalEntries`, as far as the device reports its state.
What is reported and has no such form is omitted, with the reason.

* `routesFromObserved` — the routes the crosspoints of one kind imply, in the order of their crosspoints.
* `channelsFromObserved`, `globalsFromObserved` — the settings, through the rows a section may set.
* `writtenState` — the playback routes and the mutes, from what was written where the device is silent.
-/

import OscmixDesk.Model.Entries

namespace OscmixDesk.Dump

/-- The registers of one reading of the device, each with its latest value. -/
abbrev Readout := Keyed (Prod.fst : Path × Args → Path)

/-- `seen.get(path)`. -/
def Readout.args (seen : Readout) (path : Path) : Option Args :=
  (seen.get? path).map Prod.snd

/-- Why something reported is left out. -/
inductive Omission
  /-- "channel is outside the known device map". -/
  | outsideMap
  /-- "missing mix level". -/
  | missingLevel
  /-- "mix level outside the supported range". -/
  | outsideRange
  /-- "missing pan". -/
  | missingPan
  /-- "invalid pan". -/
  | invalidPan
  /-- What the numeric functions raise. -/
  | numeric (problem : NumericProblem)
  /-- "contradictory linked level/pan aliases". -/
  | contradictory
  /-- "nonzero balance would round level to digital mute". -/
  | roundsToMute
  /-- "missing or contradictory stereo-link report". -/
  | unknownLink
  /-- "pan, balance or channel pairing is not expressible as a route". -/
  | notARoute
  /-- "missing scalar value". -/
  | missingScalar
  /-- "enum name disagrees with its wire value". -/
  | enumName
  deriving DecidableEq, Repr

/-- A register that is left out, as the warning names it. -/
structure Omitted where
  path : Path
  reason : Omission
  deriving DecidableEq, Repr

/-! ### The crosspoints -/

/-- A reported link, never an unlinked state inferred from silence. -/
def linked (seen : Readout) (family : Family) (channel : ℕ) : Option Bool :=
  match seen.args (.link family (pairLeft channel)) with
  | none | some [] => none
  | some (value :: _) =>
      if value ≠ .int 0 ∧ value ≠ .int 1 then none
      else match seen.args (.link family (pairLeft channel + 1)) with
        | some (partner :: _) => if partner = value then some (value = .int 1) else none
        | _ => some (value = .int 1)

/-- A crosspoint that is not muted. -/
structure Cell where
  output : ℕ
  source : ℕ
  level : ℚ
  pan : ℤ
  deriving DecidableEq, Repr

/-- The key of a crosspoint. -/
def Cell.address (cell : Cell) : ℕ × ℕ :=
  (cell.output, cell.source)

/-- The crosspoint its pairs share, where both are linked. -/
def Cell.home (cell : Cell) : ℕ × ℕ :=
  (pairLeft cell.output, pairLeft cell.source)

/-- What a level is taken up to: the compensation of an unlinked pair lies beyond `levelMax`. -/
def loudest : ℚ :=
  round64 (max levelMax unlinkedGainOffset + literal 1 5)

/-- One crosspoint as it was reported; none where it is muted. -/
def mixCell (device : Option Device) (kind : Kind) (output source : ℕ) (args : Args) :
    Except Omission (Option Cell) :=
  if !device.any fun known => known.has "output" output && known.has kind.family.name source then
    .error .outsideMap
  else match args with
  | [] => .error .missingLevel
  | first :: rest =>
      if first = .float (.infinite true) then .ok none
      else match finite first with
      | .error problem => .error (.numeric problem)
      | .ok level =>
          if level ≤ levelMin then .ok none
          else if loudest < level then .error .outsideRange
          else match rest with
          | [] => .error .missingPan
          | .int pan :: _ =>
              if -100 ≤ pan ∧ pan ≤ 100 then .ok (some { output, source, level, pan })
              else .error .invalidPan
          | _ => .error .invalidPan

/-- The crosspoints gathered so far, and what was omitted. -/
structure Gathered where
  cells : Keyed Cell.address := .empty
  omitted : List Omitted := []

/-- One register of the readout. -/
def Gathered.take (device : Option Device) (kind : Kind) (held : Gathered) (report : Path × Args) :
    Gathered :=
  match report.1 with
  | .mix output own source =>
      if own = kind then
        match mixCell device kind output source report.2 with
        | .ok none => held
        | .ok (some cell) => { held with cells := held.cells.put cell }
        | .error reason => { held with omitted := held.omitted ++ [⟨report.1, reason⟩] }
      else held
  | _ => held

/-- Every crosspoint of a kind that is not muted. -/
def mixEntries (seen : Readout) (device : Option Device) (kind : Kind) : Gathered :=
  seen.items.foldl (Gathered.take device kind) {}

/-- Whether a crosspoint is one of a linked output and a linked source. -/
def folded (seen : Readout) (kind : Kind) (cell : Cell) : Bool :=
  linked seen .output cell.output = some true && linked seen kind.family cell.source = some true

/-- The reports of one linked crosspoint: one stays when all agree, none when they do not. Reports without a
balance stay as they are. -/
def foldAliases (kind : Kind) (held : Gathered) (aliases : List Cell) : Gathered :=
  match aliases with
  | [] => held
  | first :: others =>
      if aliases.all (·.pan = 0) then held
      else
        let left : Keyed Cell.address :=
          held.cells.filter fun cell => !(aliases.map Cell.address).contains cell.address
        if others.any fun cell => cell.level ≠ first.level || cell.pan ≠ first.pan then
          { cells := left
            omitted := held.omitted ++ [⟨.mix first.home.1 kind first.home.2, .contradictory⟩] }
        else
          { held with cells := left.put { first with output := first.home.1, source := first.home.2 } }

/-- Folds the reports of linked crosspoints only when every declared level and balance agrees. -/
def canonicalizeBalancedCells (seen : Readout) (kind : Kind) (held : Gathered) : Gathered :=
  let linkedCells := held.cells.items.filter (folded seen kind)
  (linkedCells.map Cell.home).eraseDups.foldl
    (fun now home => foldAliases kind now (linkedCells.filter (·.home = home))) held

/-! ### The routes -/

/-- `round(value, 1)`. -/
def round1 (value : ℚ) : ℚ :=
  round64 (roundHalfEven (value * 10) / 10)

/-- The level an unlinked pair was asked for. -/
def splitLevel (level : ℚ) : ℚ :=
  round1 (round64 (level - unlinkedGainOffset))

/-- How a name spells its kind of source. -/
def shortName : Kind → String
  | .input => "in"
  | .playback => "pb"

/-- `in1-2-out3-4`. -/
def pairName (kind : Kind) (cell : Cell) : String :=
  shortName kind ++ toString cell.source ++ "-" ++ toString (cell.source + 1) ++ "-out"
    ++ toString cell.output ++ "-" ++ toString (cell.output + 1)

/-- The route of a linked pair, which is one register. Its declared balance stays with its level. -/
def linkedRoute (kind : Kind) (cell : Cell) : Route where
  name := pairName kind cell
  kind := kind
  source := .pair cell.source (cell.source + 1)
  output := .pair cell.output (cell.output + 1)
  level := round1 cell.level
  pan := cell.pan
  sameWidth := Channels.pair_width _ _ _ _

/-- The route of the hard-panned pair an unlinked route writes. The compensation comes off again. -/
def splitRoute (kind : Kind) (cell : Cell) : Route where
  name := pairName kind cell ++ "-split"
  kind := kind
  source := .pair cell.source (cell.source + 1)
  output := .pair cell.output (cell.output + 1)
  level := splitLevel cell.level
  stereo := false
  sameWidth := Channels.pair_width _ _ _ _

/-- The route of one channel to another. -/
def monoRoute (kind : Kind) (cell : Cell) : Route where
  name := shortName kind ++ toString cell.source ++ "-out" ++ toString cell.output
  kind := kind
  source := .mono cell.source
  output := .mono cell.output
  level := round1 cell.level
  sameWidth := Channels.mono_width _ _

/-- Whether a crosspoint is the odd corner of an output pair and a source pair of the device. -/
def isCorner (device : Option Device) (kind : Kind) (cell : Cell) : Bool :=
  device.any fun known => cell.output % 2 = 1 && cell.source % 2 = 1
    && known.has "output" (cell.output + 1) && known.has kind.family.name (cell.source + 1)

/-- Whether the other side of an unlinked output pair holds the other half. -/
def hasOtherHalf (cells : Keyed Cell.address) (cell : Cell) : Bool :=
  (cells.get? (cell.output + 1, cell.source)).any fun other =>
    other.pan = 100 && |round64 (other.level - cell.level)| < literal 1 4

/-- The route a crosspoint implies, with the crosspoints it accounts for. -/
def cellRoute (seen : Readout) (device : Option Device) (kind : Kind) (cells : Keyed Cell.address)
    (cell : Cell) : Except Omission (Route × List (ℕ × ℕ)) :=
  if cell.pan ≠ 0 ∧ round1 cell.level ≤ levelMin then .error .roundsToMute
  else match linked seen .output cell.output, linked seen kind.family cell.source with
  | some outLinked, some inLinked =>
      if isCorner device kind cell && outLinked && inLinked && cell.level ≤ levelMax then
        .ok (linkedRoute kind cell, [cell.address])
      else if isCorner device kind cell && !outLinked && inLinked && cell.pan = -100
          && hasOtherHalf cells cell && levelMin < splitLevel cell.level
          && splitLevel cell.level ≤ 0 then
        .ok (splitRoute kind cell, [cell.address, (cell.output + 1, cell.source)])
      else if cell.pan = 0 && !outLinked && !inLinked && cell.level ≤ levelMax then
        .ok (monoRoute kind cell, [cell.address])
      else .error .notARoute
  | _, _ => .error .unknownLink

/-- The routes recovered so far. -/
structure Recovery where
  routes : List Route := []
  claimed : List (ℕ × ℕ) := []
  omitted : List Omitted := []

/-- One crosspoint, unless a route already accounts for it. -/
def Recovery.take (seen : Readout) (device : Option Device) (kind : Kind) (cells : Keyed Cell.address)
    (found : Recovery) (cell : Cell) : Recovery :=
  if found.claimed.contains cell.address then found
  else match cellRoute seen device kind cells cell with
    | .ok (route, addresses) =>
        { found with routes := found.routes ++ [route], claimed := found.claimed ++ addresses }
    | .error reason =>
        { found with omitted := found.omitted ++ [⟨.mix cell.output kind cell.source, reason⟩] }

/-- The order of the crosspoints: by output, then by source. -/
def Cell.before (first second : Cell) : Prop :=
  first.output < second.output ∨ first.output = second.output ∧ first.source ≤ second.source

instance : DecidableRel Cell.before := fun first second =>
  inferInstanceAs (Decidable (first.output < second.output
    ∨ first.output = second.output ∧ first.source ≤ second.source))

/-- The crosspoints the routes are read from. -/
def canonicalCells (seen : Readout) (device : Option Device) (kind : Kind) : Gathered :=
  canonicalizeBalancedCells seen kind (mixEntries seen device kind)

/-- The routes a device's reported state implies, and what is omitted. -/
def routesFromObserved (seen : Readout) (device : Option Device) (kind : Kind := .input) :
    List Route × List Omitted :=
  let held := canonicalCells seen device kind
  let found := (held.cells.items.insertionSort Cell.before).foldl
    (Recovery.take seen device kind held.cells) {}
  (found.routes, held.omitted ++ found.omitted)

/-! ### The settings -/

/-- The names of a list, each once, in order. -/
def sortedNames (names : List String) : List String :=
  names.eraseDups.insertionSort fun first second => first ≤ second

/-- The sub-families a `[<sub>:<family>:<n>]` section may name. -/
def nestedFamilies (device : Device) (family : Family) : List String :=
  sortedNames (device.registers.filterMap fun row =>
    match row.template with
    | .channel own (.nested sub _) => if own = family then some sub else none
    | _ => none)

/-- Every family name a `[<family>]` section may use. -/
def globalFamilies (device : Device) : List String :=
  sortedNames (device.registers.filterMap fun row =>
    match row.template with
    | .global own _ => if row.channels = globalCapability then some own else none
    | _ => none)

/-- The wire values of an enum. -/
def wireValues (register : Register) : List ℤ :=
  if register.values.isEmpty then (List.range register.choices.length).map Int.ofNat
  else register.values

/-- One reported register as the value a configuration would carry: an enum's name where it is reported, a
switch as a switch. -/
def configValue (register : Register) (args : Args) : Except Omission Value :=
  match args with
  | [] => .error .missingScalar
  | first :: rest =>
      match reportValue first register with
      | .error problem => .error (.numeric problem)
      | .ok number =>
          match register.domain with
          | some .enum =>
              let name := register.choices.getD ((wireValues register).idxOf number.num) ""
              match rest with
              | [] => .ok first
              | other :: _ => if other = .str name then .ok (.str name) else .error .enumName
          | some .bool => .ok (boolArg (number ≠ 0))
          | _ => .ok first

/-- The rows a channel section or a nested one may set, each with the key the settings are sorted by. -/
def channelRows (device : Device) (family : Family) : List (String × Register) :=
  (settableOptionRows (some device) family
    ++ (nestedFamilies device family).flatMap fun sub =>
        (settableNested (some device) sub family).map fun row =>
          (if row.1 = enableOption then sub else sub ++ "/" ++ row.1, row.2)).insertionSort
    fun first second => first.1 ≤ second.1

/-- The registers of a row, channel by channel. -/
def rowRegisters (device : Device) (register : Register) : List (ℕ × Setting) :=
  match register.template with
  | .channel _ setting => (device.channelsFor register.channels).map fun channel => (channel, setting)
  | _ => []

/-- The warning of a register that could not be read. -/
def omission {α : Type} (path : Path) : Except Omission α → Option Omitted
  | .ok _ => none
  | .error reason => some ⟨path, reason⟩

/-- Reports read one after another: the settings, and what is omitted. -/
def readSettings {α : Type} (seen : Readout) (registers : List (Path × Register))
    (setting : Path → Value → Option α) : List α × List Omitted :=
  let found := registers.filterMap fun row =>
    (seen.args row.1).map fun args => (row.1, configValue row.2 args)
  (found.filterMap fun read => read.2.toOption.bind (setting read.1),
    found.filterMap fun read => omission read.1 read.2)

/-- The setting of a channel register. -/
def channelSetting : Path → Value → Option ChannelSetting
  | .channel family channel option, value => some { family, channel, option, value }
  | _, _ => none

/-- Channel state read back out of a dump, as a configuration would express it. -/
def channelsFromObserved (seen : Readout) (device : Option Device) :
    List ChannelSetting × List Omitted :=
  match device with
  | none => ([], [])
  | some known =>
      readSettings seen ([Family.input, Family.output].flatMap fun family =>
        (channelRows known family).flatMap fun row =>
          (rowRegisters known row.2).map fun register =>
            (.channel family register.1 register.2, row.2)) channelSetting

/-- The setting of a register without a channel. -/
def globalSetting : Path → Value → Option GlobalSetting
  | .global family none, value => some { family, option := enableOption, value }
  | .global family (some option), value => some { family, option, value }
  | _, _ => none

/-- The settings without channels read back out of a dump. -/
def globalsFromObserved (seen : Readout) (device : Option Device) :
    List GlobalSetting × List Omitted :=
  match device with
  | none => ([], [])
  | some known =>
      readSettings seen ((globalFamilies known).flatMap fun family =>
        ((settableGlobals (some known) family).insertionSort fun first second => first.1 ≤ second.1).map
          fun row =>
            (.global family (if row.1 = enableOption then none else some row.1), row.2)) globalSetting

/-! ### What was written -/

/-- What the journal holds of a register: what was written and when. -/
structure Journalled where
  path : Path
  tags : String
  args : Args
  stamp : String

/-- What was last written where the device reports nothing. -/
structure WrittenState where
  source : String
  routes : List Route
  mutes : List (ℕ × ℤ)
  stamps : List (Path × String)

/-- Whether a register is re-established rather than reported. -/
def reestablished (device : Option Device) (path : Path) : Bool :=
  (registerAt device path).any (·.verify = .reestablished)

/-- The mute flags of a readout. -/
def writtenMutes (seen : Readout) : List (ℕ × ℤ) × List Omitted :=
  seen.items.foldl (fun found report =>
    match report.1 with
    | .channel .playback channel (.flat "mute") =>
        match report.2 with
        | [] => (found.1, found.2 ++ [⟨report.1, .missingScalar⟩])
        | first :: _ =>
            match integer first with
            | .ok number => (found.1 ++ [(channel, number)], found.2)
            | .error problem => (found.1, found.2 ++ [⟨report.1, .numeric problem⟩])
    | _ => found) ([], [])

/-- What the journal says of the registers the device does not report, with the output links it does. -/
def journalled (journal : List Journalled) (reported : Readout) (device : Option Device) : Readout :=
  (reported.items.filter fun report =>
      report.1.inFamily .output && report.1.endsWith "stereo").foldl Keyed.put
    (Keyed.ofList ((journal.filter fun write => reestablished device write.path).map fun write =>
      (write.path, write.args)))

/-- Playback routes and mute flags recovered from the write journal, never from the device. -/
def writtenState (journal : List Journalled) (reported : Readout) (device : Option Device)
    (source : String) : WrittenState × List Omitted :=
  let seen := journalled journal reported device
  let routes := routesFromObserved seen device .playback
  let mutes := writtenMutes seen
  ({ source, routes := routes.1, mutes := mutes.1,
     stamps := journal.map fun write => (write.path, write.stamp) },
    routes.2 ++ mutes.2)

/-- Register families a dump cannot reproduce. -/
def unrecoverable (device : Option Device) : List Template :=
  match device with
  | none => []
  | some known => (known.registers.filter (·.verify = .reestablished)).map (·.template)

end OscmixDesk.Dump
