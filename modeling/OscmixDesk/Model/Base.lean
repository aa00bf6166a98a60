/-
**Whole-state desks: what `[desk] base =` writes beneath the declared routes** (`base.py`).

A base silences every cell of some source matrices that no route sets (`baseEntries`), and two of
the bases also play every playback pair on its own outputs (`baseRoutes`). Silence needs no link:
where the desk declares no link for a pair, it is written to both registers of the pair, one of
which may fold onto the other.
-/

import OscmixDesk.Model.Autogain

namespace OscmixDesk

namespace Base

/-- The bases under the names a file gives them. -/
def named : List (String × Base) :=
  [("keep", .keep), ("clear-inputs", .clearInputs), ("clear-submixes", .clearSubmixes),
    ("straight-playback", .straightPlayback), ("daw", .daw)]

/-- Which source matrices a base silences. -/
def silences : Base → List Kind
  | .keep => []
  | .clearInputs => [.input]
  | .clearSubmixes => [.input, .playback]
  | .straightPlayback => [.playback]
  | .daw => [.input, .playback]

/-- Whether a base plays every playback pair on its outputs. -/
def straight : Base → Bool
  | .straightPlayback => true
  | .daw => true
  | _ => false

end Base

def checkBase (name : String) : Except ConfigProblem Base :=
  match Base.named.lookup name with
  | some base => .ok base
  | none => .error (.baseName name)

/-- The link the routes declare for a pair; a later route's word wins. -/
def declaredLink (routes : List Route) (family : Family) (channel : ℕ) : Option Bool :=
  ((allRequirements routes).reverse.find? fun requirement =>
    requirement.family = family && requirement.channel = channel).map (·.linked)

/-- The odd channels of the pairs a device has in a family. -/
def oddChannels (device : Device) (family : Family) : List ℕ :=
  let channels := device.channelsFor family.name
  channels.filter fun channel => channel % 2 = 1 && channels.contains (channel + 1)

/-! ### Silent cells -/

/-- One silent cell; a register that may fold is not compared. -/
structure SilentCell where
  path : Path
  compared : Bool
  deriving DecidableEq, Repr

/-- The channels of a pair that silence is written to. -/
def addressed (link : Option Bool) (left : ℕ) : List ℕ :=
  if link = some true then [left] else [left, left + 1]

/-- The silent cells of one block: an output pair and a source pair of one kind. -/
def blockCells (routes : List Route) (out : ℕ) (kind : Kind) (source : ℕ) : List SilentCell :=
  let outLink := declaredLink routes .output out
  let sourceLink := declaredLink routes kind.family source
  (addressed outLink out).flatMap fun target =>
    (addressed sourceLink source).map fun channel =>
      { path := .mix target kind channel
        compared := (target = out || outLink.isSome) && (channel = source || sourceLink.isSome) }

/-- The silent cells of `base` where no route writes, in block order. -/
def baseEntries (base : Base) (routes : List Route) (declared : List Path) (device : Device) :
    List SilentCell :=
  ((oddChannels device .output).flatMap fun out =>
    base.silences.flatMap fun kind =>
      (oddChannels device kind.family).flatMap fun source =>
        blockCells routes out kind source).filter fun cell => !declared.contains cell.path

/-! ### Straight playback -/

/-- A mirror declaration: the target and the source outputs, one channel or one pair each. -/
structure Mirror where
  target : Channels
  source : Channels
  sameWidth : target.isPair = source.isPair
  deriving Repr

/-- The settings of a channel, a later word on an option winning. -/
def settingsOf (settings : List ChannelSetting) (family : Family) (channel : ℕ)
    (option : Setting) : Option Value :=
  (settings.reverse.find? fun setting => setting.family = family && setting.channel = channel
    && setting.option = option).map (·.value)

/-- Python's equality of two settings: an integer equals the float of its value. -/
def Value.equals : Value → Value → Bool
  | .int a, .float (.finite b) => (a : ℚ) = b
  | .float (.finite a), .int b => a = (b : ℚ)
  | .float .nan, _ => false
  | _, .float .nan => false
  | a, b => a = b

/-- Whether linking a pair would merge options the desk keeps apart. -/
def mergesApart (settings : List ChannelSetting) (family : Family) (left : ℕ) : Bool :=
  (settings.filter fun setting => setting.family = family
    && (setting.channel = left || setting.channel = left + 1)).any fun setting =>
      match settingsOf settings family left setting.option,
          settingsOf settings family (left + 1) setting.option with
      | some odd, some even => !odd.equals even
      | _, _ => true

/-- The matrix cells of playback sources the routes set. -/
def takenCells (routes : List Route) : List (ℕ × ℕ) :=
  routes.flatMap fun route => route.output.toList.flatMap fun out =>
    route.playback.map fun source => (out, source)

/-- The base's name of the diagonal of a pair. -/
def pairName (left : ℕ) : String :=
  "[desk] base " ++ toString left ++ "/" ++ toString (left + 1)

/-- Playback channel `channel` alone on its output. -/
def monoDiagonal (channel : ℕ) : Route where
  name := "[desk] base " ++ toString channel
  kind := .playback
  source := .mono channel
  output := .mono channel
  base := true
  sameWidth := Channels.mono_width _ _

/-- Playback pair `left` on its output pair. -/
def pairDiagonal (left : ℕ) (stereo : Bool) : Route where
  name := pairName left
  kind := .playback
  source := .pair left (left + 1)
  output := .pair left (left + 1)
  stereo := stereo
  base := true
  sameWidth := Channels.pair_width _ _ _ _

/-- Playback pair `left` on output pair `left` at 0 dB, shaped by the declared links. -/
def diagonal (left : ℕ) (playback output : Option Bool) (taken : List (ℕ × ℕ)) :
    Except ConfigProblem (List Route) :=
  if playback = some false ∧ output = some true then .error (.straightShapes left)
  else if playback = some false then
    .ok (([left, left + 1].filter fun channel => !taken.contains (channel, channel)).map
      monoDiagonal)
  else if [(left, left), (left, left + 1), (left + 1, left), (left + 1, left + 1)].any
      taken.contains then .ok []
  else .ok [pairDiagonal left (output ≠ some false)]

/-- The channels some mirror writes. -/
def mirroredOutputs (mirrors : List Mirror) : List ℕ :=
  mirrors.flatMap (·.target.toList)

/-- The sources mirrored as one channel. -/
def mirroredAlone (mirrors : List Mirror) : List ℕ :=
  (mirrors.filter (!·.source.isPair)).map (·.source.first)

/-- The odd channels of the sources mirrored as a pair. -/
def mirroredPairs (mirrors : List Mirror) : List ℕ :=
  (mirrors.filter (·.source.isPair)).map (·.source.first)

/-- Whether the mirrors around a diagonal can copy it. -/
def mirrorsCopy (left : ℕ) (diagonal : List Route) (mirrors : List Mirror) : Bool :=
  let wide := diagonal.any (·.output.isPair)
  let narrow := diagonal.any (!·.output.isPair)
  diagonal.isEmpty ||
    (!([left, left + 1].any (mirroredOutputs mirrors).contains)
      && !(wide && [left, left + 1].any (mirroredAlone mirrors).contains)
      && !(narrow && (mirroredPairs mirrors).contains left))

/-- The pairs the diagonal links and the desk does not. -/
def ownedLinks (routes : List Route) (diagonal : List Route) : List (Family × ℕ) :=
  (allRequirements diagonal).filterMap fun requirement =>
    if requirement.linked
        && (declaredLink routes requirement.family requirement.channel).isNone then
      some (requirement.family, requirement.channel)
    else none

/-- The pairs the base links because it plays a diagonal: its own, and of a mirrored output the
target's, which gets a copy. -/
def linkedByBase (routes diagonal : List Route) (mirrors : List Mirror) (left : ℕ) :
    List (Family × ℕ) :=
  let owned := ownedLinks routes diagonal
  if owned.contains (.output, left) then
    owned ++ (((mirrors.filter (·.source.isPair)).reverse.find? (·.source.first = left)).map
      fun mirror => (Family.output, mirror.target.first)).toList
  else owned

/-- The diagonal of one pair, refused where it would take a mirror or a setting apart. -/
def baseRoutesOf (routes : List Route) (settings : List ChannelSetting) (mirrors : List Mirror)
    (left : ℕ) : Except ConfigProblem (List Route) := do
  let added ← diagonal left (declaredLink routes .playback left) (declaredLink routes .output left)
    (takenCells routes)
  if !mirrorsCopy left added mirrors then throw (.straightMirror left)
  match (linkedByBase routes added mirrors left).find? fun owned =>
      mergesApart settings owned.1 owned.2 with
  | some (family, channel) => throw (.straightMerges family channel)
  | none => return added

/-- The routes `straight-playback` and `daw` declare: each playback pair on its outputs. A mirror
target gets its source's, and a cell a route already sets stays the route's. -/
def baseRoutes (base : Base) (routes : List Route) (settings : List ChannelSetting)
    (mirrors : List Mirror) (device : Device) : Except ConfigProblem (List Route) :=
  if !base.straight then .ok []
  else do
    let lefts := (oddChannels device .output).filter fun left =>
      (oddChannels device .playback).contains left
        && !([left, left + 1].all (mirroredOutputs mirrors).contains)
    return (← lefts.mapM (baseRoutesOf routes settings mirrors)).flatten

end OscmixDesk
