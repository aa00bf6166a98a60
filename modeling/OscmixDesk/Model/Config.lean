/-
**A desk as data: what a `routing.conf` says, once it has been read** (`model.py`).

Routes, channel and global settings, the device's identity and what the command line puts over the
file. A route has one source and one output side, each one channel or two, and both of one width:
the loader refuses anything else, so `Route` carries the equality as a field.

* `Route.linkRequirements` — the pair flags a route needs before its mix is written.
* `Route.checkedPan` — a balance is declared only where one register can hold it.
* `validateRoutePan` — routes that share a balanced register must agree on it.
-/

import OscmixDesk.Model.Numeric

namespace OscmixDesk

/-! ### Routes -/

/-- One channel, or the two channels of a pair side in the order the file names them. -/
inductive Channels
  | mono (channel : ℕ)
  | pair (left right : ℕ)
  deriving DecidableEq, Repr

namespace Channels

/-- The channels as a list: the tuple of the source. -/
def toList : Channels → List ℕ
  | mono channel => [channel]
  | pair left right => [left, right]

/-- The first channel: `channels[0]`. -/
def first : Channels → ℕ
  | mono channel => channel
  | pair left _ => left

def isPair : Channels → Bool
  | mono _ => false
  | pair _ _ => true

theorem first_mem (channels : Channels) : channels.first ∈ channels.toList := by
  cases channels <;> simp [first, toList]

theorem mono_width (first second : ℕ) : (mono first).isPair = (mono second).isPair := rfl

theorem pair_width (left right left' right' : ℕ) :
    (pair left right).isPair = (pair left' right').isPair := rfl

/-- Whether the side is the odd channel of a pair and the even one after it. -/
def adjacent : Channels → Bool
  | mono _ => false
  | pair left right => left % 2 = 1 && right = left + 1

end Channels

/-- One source to hardware output route, mono or a stereo pair. -/
structure Route where
  name : String
  /-- Whether the source is a hardware input or a software playback. -/
  kind : Kind
  source : Channels
  output : Channels
  level : ℚ := 0
  volume : Option ℚ := none
  stereo : Bool := true
  /-- Balance of a linked stereo source and output pair. -/
  pan : ℤ := 0
  /-- The outputs this route copies, when a `mirror =` declared it. -/
  mirrorOf : Option Channels := none
  /-- Declared by `[desk] base`, not by the file. -/
  base : Bool := false
  sameWidth : source.isPair = output.isPair
  deriving DecidableEq, Repr

/-- A pair flag: the family, the odd channel of the pair and whether it is linked. -/
structure LinkRequirement where
  family : Family
  channel : ℕ
  linked : Bool
  deriving DecidableEq, Repr

/-- The odd channel a side's pair is addressed at. -/
def anchor (channel : ℕ) : ℕ :=
  if channel % 2 = 1 then channel else channel - 1

namespace Route

/-- The channels of the route's input source; empty for a playback route. -/
def input (route : Route) : List ℕ :=
  if route.kind = .input then route.source.toList else []

/-- The channels of the route's playback source; empty for an input route. -/
def playback (route : Route) : List ℕ :=
  if route.kind = .playback then route.source.toList else []

/-- The pair flag of the source. -/
def sourceLink (route : Route) : LinkRequirement where
  family := route.kind.family
  channel := anchor route.source.first
  linked := route.source.isPair

/-- The pair flag of the output. -/
def outputLink (route : Route) : LinkRequirement where
  family := .output
  channel := anchor route.output.first
  linked := route.output.isPair && route.stereo

/-- The pair flags required to address exactly this route's channels. -/
def linkRequirements (route : Route) : List LinkRequirement :=
  [route.sourceLink, route.outputLink]

end Route

/-- Why a balance is refused. -/
inductive PanProblem
  | outOfRange
  | needsLinkedPairs
  | silent
  | linksDisagree (family : Family) (channel : ℕ)
  | routesDisagree (first second : String)
  deriving DecidableEq, Repr

/-- A channel number the file format knows. -/
def inChannelRange (channel : ℕ) : Bool :=
  channelMin ≤ channel && (channel : ℤ) ≤ channelMax

/-- A declared balance supported by this route's addressing shape. -/
def Route.checkedPan (route : Route) : Except PanProblem ℤ := do
  if ¬(-100 ≤ route.pan ∧ route.pan ≤ 100) then throw .outOfRange
  if route.pan ≠ 0 then
    if !route.stereo || !(route.source.toList ++ route.output.toList).all inChannelRange
        || !route.source.adjacent || !route.output.adjacent then
      throw .needsLinkedPairs
    if ¬(levelMin < route.level ∧ route.level ≤ levelMax) then throw .silent
  return route.pan

/-- The matrix register a route's level and balance belong to, its address folded by its links. -/
def Route.cellKey (route : Route) : ℕ × Family × ℕ :=
  (if route.outputLink.linked then route.outputLink.channel else route.output.first,
    route.kind.family,
    if route.sourceLink.linked then route.sourceLink.channel else route.source.first)

/-- The first requirement of the list that contradicts an earlier one. -/
def disagreement : List LinkRequirement → List LinkRequirement → Option LinkRequirement
  | _, [] => none
  | seen, requirement :: rest =>
      if seen.any fun earlier => earlier.family = requirement.family
          && earlier.channel = requirement.channel && earlier.linked != requirement.linked then
        some requirement
      else disagreement (seen ++ [requirement]) rest

/-- Every pair flag the routes state, in file order. -/
def allRequirements (routes : List Route) : List LinkRequirement :=
  routes.flatMap Route.linkRequirements

/-- The routes of one register, where a balance is declared, must agree on it. -/
def claimProblem (claims : List Route) : Option PanProblem :=
  match claims with
  | [] => none
  | first :: others =>
      if claims.all (·.pan = 0) then none
      else (others.find? fun route => first.level ≠ route.level || first.pan ≠ route.pan).map
        fun route => .routesDisagree first.name route.name

/-- Rejects incompatible claims to one register where a balance is declared. -/
def validateRoutePan (routes : List Route) : Except PanProblem Unit :=
  if routes.all (·.pan = 0) then .ok ()
  else match disagreement [] (allRequirements routes) with
  | some requirement => .error (.linksDisagree requirement.family requirement.channel)
  | none =>
      match (routes.map Route.cellKey).eraseDups.findSome? fun key =>
          claimProblem (routes.filter (·.cellKey = key)) with
      | some problem => .error problem
      | none => .ok ()

/-! ### Settings and the whole desk -/

/-- One option a channel section sets: a row of the register table with a value. -/
structure ChannelSetting where
  family : Family
  channel : ℕ
  option : Setting
  value : Value
  deriving DecidableEq, Repr

/-- The path the setting's register has. -/
def ChannelSetting.path (setting : ChannelSetting) : Path :=
  .channel setting.family setting.channel setting.option

/-- One option a `[<family>]` section sets, for a family with no channel dimension. -/
structure GlobalSetting where
  family : String
  option : String
  value : Value
  deriving DecidableEq, Repr

/-- The path this writes. The family's own register has no segment of its own. -/
def GlobalSetting.path (setting : GlobalSetting) : Path :=
  if setting.option = enableOption then .global setting.family none
  else .global setting.family (some setting.option)

/-- What the command line puts over the file. -/
structure Overrides where
  deviceName : Option String := none
  oscPort : Option ℤ := none
  deriving DecidableEq, Repr

/-- Device identity and the two retained legacy OSC ports. -/
structure Machine where
  deviceName : String
  usbId : String
  serial : String
  oscPort : ℤ
  oscRecvPort : ℤ
  deriving DecidableEq, Repr

/-- A device name the command line gives; an empty one gives none. -/
def Overrides.named (overrides : Overrides) : Option String :=
  overrides.deviceName.filter (· ≠ "")

/-- This machine as a start resolves it: the command line over the file. -/
def Machine.under (machine : Machine) (overrides : Overrides) : Machine :=
  { machine with
    deviceName := overrides.named.getD machine.deviceName
    oscPort := overrides.oscPort.getD machine.oscPort }

/-- What the matrix is beneath the routes. -/
inductive Base
  | keep
  | clearInputs
  | clearSubmixes
  | straightPlayback
  | daw
  deriving DecidableEq, Repr

/-- How the running session keeps the desk. -/
inductive Enforce
  | apply
  | watch
  deriving DecidableEq, Repr

/-- A desk, parsed and validated, and not changed after that. -/
structure Config where
  deviceName : String := defaultDeviceName
  usbId : String := defaultUsbId
  /-- Which box; empty for the only one. -/
  serial : String := ""
  oscPort : ℤ := 7222
  oscRecvPort : ℤ := 8222
  routes : List Route := []
  channels : List ChannelSetting := []
  globals : List GlobalSetting := []
  /-- The `[pin]` section's word on an option, over the register table's. -/
  policies : List ((Family × String) × Policy) := []
  /-- The machine settings as the file resolved them. -/
  loaded : Option Machine := none
  overrides : Overrides := {}
  base : Base := .keep
  enforce : Enforce := .apply
  peakSafe : Bool := false
  deriving DecidableEq, Repr

end OscmixDesk
