/-
**The register state a configuration asks for** (`reconcile.py`, first half).

A route states the links it needs (`linkMessages`) and the crosspoints and faders it sets
(`mixMessages`); a base silences the crosspoints no route sets; sections set registers by their
rows (`encode`). `desired` is the union of these in the order it is sent: phase by phase, and within
a phase as the configuration states them.
-/

import OscmixDesk.Foundation.Buckets
import OscmixDesk.Foundation.Keyed
import OscmixDesk.Model.Loader

namespace OscmixDesk

/-! ### Messages of a route -/

/-- An OSC message: a path, its type tags and its arguments. -/
structure Message where
  path : Path
  tags : String
  args : Args
  deriving DecidableEq, Repr

/-- A switch as an argument. -/
def boolArg (value : Bool) : Value :=
  .int (if value then 1 else 0)

/-- The channel-pair link state a route needs before its mix is written. -/
def linkMessages (route : Route) : List Message :=
  route.linkRequirements.map fun requirement =>
    { path := .link requirement.family requirement.channel, tags := "i",
      args := [boolArg requirement.linked] }

/-- The level of an unlinked pair. The backend halves the gain on this path, so the request is
raised to mean the same level; mute must remain the backend's explicit zero. -/
def unlinkedLevel (level : ℚ) : ℚ :=
  if level ≤ levelMin then levelMin else round64 (min level 0 + unlinkedGainOffset)

/-- One crosspoint: its level and its balance. -/
def mixMessage (output : ℕ) (kind : Kind) (source : ℕ) (level : ℚ) (pan : ℤ) : Message where
  path := .mix output kind source
  tags := "fi"
  args := [.real level, .int pan]

/-- The crosspoints a route sets. A linked pair is one register, addressed at its left channel; an
unlinked one is fed side by side through the balance of the linked source. -/
def cellMessages (route : Route) : List Message :=
  match route.output with
  | .mono out => [mixMessage out route.kind route.source.first route.level 0]
  | .pair left right =>
      if route.stereo then [mixMessage left route.kind route.source.first route.level route.pan]
      else
        [mixMessage left route.kind route.source.first (unlinkedLevel route.level) (-100),
          mixMessage right route.kind route.source.first (unlinkedLevel route.level) 100]

/-- The faders a route sets. -/
def volumeMessages (route : Route) : List Message :=
  match route.volume with
  | none => []
  | some volume => route.output.toList.map fun out =>
      { path := .volume out, tags := "f", args := [.real volume] }

/-- The mix-matrix and volume writes of a route. -/
def mixMessages (route : Route) : List Message :=
  cellMessages route ++ volumeMessages route

/-! ### Entries -/

/-- When a register is written, which is also the order of an apply. -/
inductive Phase
  | playbackMuteOn
  | autosetOff
  | link
  | mix
  | channel
  | autosetOn
  | playbackMuteOff
  deriving DecidableEq, Repr

/-- The number the source gives a phase. -/
def Phase.number : Phase → ℤ
  | .playbackMuteOn => -2
  | .autosetOff => -1
  | .link => 0
  | .mix => 1
  | .channel => 2
  | .autosetOn => 3
  | .playbackMuteOff => 4

/-- The phases in the order of an apply. -/
def Phase.order : List Phase :=
  [.playbackMuteOn, .autosetOff, .link, .mix, .channel, .autosetOn, .playbackMuteOff]

/-- One register the configuration asks for. -/
structure Entry where
  path : Path
  tags : String
  args : Args
  phase : Phase
  /-- Written by `[desk] base`: remembered after an explicit apply. -/
  base : Bool := false
  /-- False for a register that may fold onto its linked partner. -/
  compared : Bool := true
  deriving DecidableEq, Repr

/-- A message of a route, as the entry of its phase. -/
def Message.entry (message : Message) (phase : Phase) (base : Bool) : Entry where
  path := message.path
  tags := message.tags
  args := message.args
  phase := phase
  base := base

/-- Sets an entry, unless a route of the desk already set the register of one of the base. -/
def claim (held : Keyed Entry.path) (entry : Entry) : Keyed Entry.path :=
  if entry.base && (held.get? entry.path).any (!·.base) then held else held.put entry

/-- What the routes produce: every link of every route, then every mix write. -/
def producedEntries (routes : List Route) : List Entry :=
  (routes.flatMap fun route => (linkMessages route).map (·.entry .link route.base))
    ++ routes.flatMap fun route => (mixMessages route).map (·.entry .mix route.base)

/-- The registers of the routes. A later route wins, in the place of the first. -/
def routeEntries (routes : List Route) : Keyed Entry.path :=
  (producedEntries routes).foldl claim .empty

/-- The position a register was first produced at. -/
def sendOrder (routes : List Route) (path : Path) : ℕ :=
  ((producedEntries routes).map (·.path)).eraseDups.idxOf path

/-- The entries in the order their messages were produced in. -/
def orderedEntries (routes : List Route) : List Entry :=
  (routeEntries routes).items.insertionSort fun first second =>
    sendOrder routes first.path ≤ sendOrder routes second.path

/-- A silent cell of the base. -/
def SilentCell.entry (cell : SilentCell) : Entry where
  path := cell.path
  tags := "fi"
  args := [.real levelMin, .int 0]
  phase := .mix
  base := true
  compared := cell.compared

/-- The silent cells of the base beneath the routes, on a device that is modelled. -/
def silentEntries (config : Config) : List Entry :=
  match deviceForName config.deviceName with
  | none => []
  | some device =>
      (baseEntries config.base config.routes (routeEntries config.routes).keys device).map
        SilentCell.entry

/-! ### Settings -/

/-- The wire value of an enum name: its position, unless the register declares otherwise. -/
def enumValue (register : Register) (value : Value) : Except Fault ℤ :=
  match value with
  | .str name =>
      match register.choices.idxOf? name with
      | some position => .ok (register.values.getD position position)
      | none => .error (.value .unknownChoice)
  | _ => .error (.value .unknownChoice)

/-- The phase of a switch or an integer: mutes of playback and AutoSet have their own. -/
def settingPhase (path : Path) (number : ℤ) : Phase :=
  if path.inFamily .playback && path.endsWith "mute" then
    if number ≠ 0 then .playbackMuteOn else .playbackMuteOff
  else if path.endsWith "autoset" then
    if number ≠ 0 then .autosetOn else .autosetOff
  else .channel

/-- Whether a value is in the domain of its register. -/
def checkDomain (register : Register) (value : Value) : Except NumericProblem Unit :=
  match register.domain with
  | some .number => (numberValue value register).map fun _ => ()
  | some .bool => (reportValue value register).map fun _ => ()
  | _ => .ok ()

/-- One setting as the entry that writes it. The declared tag decides the wire type. -/
def encode (path : Path) (register : Register) (value : Value) : Except Fault Entry := do
  if register.domain = some .enum then
    let number ← enumValue register value
    return { path, tags := "i", args := [.int number], phase := .channel }
  else
    orNumeric (checkDomain register value)
    if register.startsWith 'f' then
      let number ← orNumeric (finite value)
      return { path, tags := "f", args := [.real number], phase := .channel }
    else
      let number ← orNumeric (integer value)
      return { path, tags := "i", args := [.int number], phase := settingPhase path number }

/-- The register a channel setting writes, or none where the device has no such option. -/
def channelEntry (device : Device) (setting : ChannelSetting) : Except Fault (Option Entry) :=
  match optionRegister (some device) setting.family setting.option setting.channel with
  | some register => do return some (← encode setting.path register setting.value)
  | none =>
      if (optionChannels (some device) setting.family setting.option).isEmpty then .ok none
      else .error (.value (.lacksOption setting.channel setting.option))

/-- The channel settings, as registers to write. -/
def channelEntries (config : Config) : Except Fault (List Entry) :=
  match deviceForName config.deviceName with
  | none => .ok []
  | some device => do return (← config.channels.mapM (channelEntry device)).filterMap id

/-- The register a global setting writes. -/
def globalEntry (device : Device) (setting : GlobalSetting) : Except Fault (Option Entry) :=
  match (settableGlobals (some device) setting.family).lookup setting.option with
  | some register => do return some (← encode setting.path register setting.value)
  | none => .ok none

/-- The settings of the families without channels, as registers to write. -/
def globalEntries (config : Config) : Except Fault (List Entry) :=
  match deviceForName config.deviceName with
  | none => .ok []
  | some device => do return (← config.globals.mapM (globalEntry device)).filterMap id

/-! ### The union -/

/-- Refuses a balanced route on channels the device does not have. -/
def checkBalanced (device : Device) (route : Route) : Except Fault Unit :=
  if route.pan = 0 then .ok ()
  else if !route.source.toList.all (device.channelsFor route.kind.family.name).contains then
    .error (.value (.balancedRoute route.name route.kind.family))
  else if !route.output.toList.all (device.channelsFor "output").contains then
    .error (.value (.balancedRoute route.name .output))
  else .ok ()

/-- The checks `desired` makes before it produces an entry. -/
def checkDesired (config : Config) : Except Fault Unit := do
  (validateRoutePan config.routes).mapError (.value ∘ .pan)
  validateAutogain config
  orConfig (validatePlaybackMute config)
  match deviceForName config.deviceName with
  | none => return ()
  | some device => config.routes.forM (checkBalanced device)

/-- The register state a configuration asks the device to be in. -/
def desired (config : Config) : Except Fault (List Entry) := do
  checkDesired config
  let channels ← channelEntries config
  let globals ← globalEntries config
  return bucketSort Phase.order Entry.phase
    (orderedEntries config.routes ++ silentEntries config ++ channels ++ globals)

end OscmixDesk
