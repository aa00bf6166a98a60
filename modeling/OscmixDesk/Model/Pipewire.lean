/-
**Named sinks of the desktop** (`pipewire.py`).

Every pair of outputs that a route of the file feeds gets one sink, named after the first such route. Here is what
the generated file holds, before it is put in words. `str.isalnum` of a character outside ASCII is a parameter.
-/

import OscmixDesk.Model.Config
import OscmixDesk.Model.Discovery

namespace OscmixDesk.Pipewire

/-- Why no file is generated. -/
inductive Problem
  /-- "no stereo pair routes configured; nothing to generate". -/
  | noPairs
  /-- "channel … exceeds the … channels of the target sink". -/
  | exceeds (channel channels : ℕ)
  /-- "cannot map channel … without knowing the sink layout; …". -/
  | unknownLayout (channel : ℕ)
  deriving DecidableEq, Repr

/-! ### Positions -/

/-- The surround profile's labels of the playback channels. -/
def surroundPositions : List (ℕ × String) :=
  [(1, "FL"), (2, "FR"), (3, "RL"), (4, "RR"), (5, "FC"), (6, "LFE"), (7, "SL"), (8, "SR")]

/-- The label of one playback channel; no known labels are as good as none. -/
def position (sinkPositions : List String) (channel : ℕ) : Except Problem String :=
  if sinkPositions ≠ [] then
    if 1 ≤ channel ∧ channel ≤ sinkPositions.length then .ok (sinkPositions.getD (channel - 1) "")
    else .error (.exceeds channel sinkPositions.length)
  else match surroundPositions.lookup channel with
  | some label => .ok label
  | none => .error (.unknownLayout channel)

def pipewirePositions (channels : List ℕ) (sinkPositions : List String) : Except Problem (List String) :=
  channels.mapM (position sinkPositions)

/-! ### The routes -/

/-- Whether a route asks for a sink: it feeds a pair, and is no mirror's copy and no base's. -/
def feeds (route : Route) : Bool :=
  route.output.isPair && route.mirrorOf.isNone && !route.base

/-- The routes that get a sink, and those whose outputs have one, each with the name that it has. -/
structure Chosen where
  pairRoutes : List Route := []
  dropped : List (Route × String) := []

/-- The first route of a pair of outputs names its sink. -/
def choose (chosen : Chosen) (route : Route) : Chosen :=
  if !feeds route then chosen
  else match chosen.pairRoutes.find? (·.output = route.output) with
  | some kept => { chosen with dropped := chosen.dropped ++ [(route, kept.name)] }
  | none => { chosen with pairRoutes := chosen.pairRoutes ++ [route] }

/-! ### The file -/

/-- `re.sub(r"[^\w.-]", "_", name)`. -/
def nodeName (alnum : Char → Bool) (name : String) : List Char :=
  name.toList.map fun c => if Discovery.isWord alnum c || c == '.' || c == '-' then c else '_'

/-- The arguments of one loopback. -/
structure Sink where
  /-- The outputs of its route. -/
  output : Channels
  description : String
  captureNode : List Char
  playbackNode : List Char
  positions : List String
  target : String
  deriving DecidableEq, Repr

/-- What the generated file holds: its notes, and its sinks. -/
structure Conf where
  dropped : List (Route × String)
  unfed : List Route
  sinks : List Sink

/-- `oscmix.` -/
def nodePrefix : List Char := ['o', 's', 'c', 'm', 'i', 'x', '.']

/-- `.out` -/
def outSuffix : List Char := ['.', 'o', 'u', 't']

/-- The loopback of a route. -/
def loopback (alnum : Char → Bool) (target : String) (sinkPositions : List String) (route : Route) :
    Except Problem Sink := do
  let node := nodePrefix ++ nodeName alnum route.name
  let positions ← pipewirePositions route.output.toList sinkPositions
  return { output := route.output, description := route.name, captureNode := node,
           playbackNode := node ++ outSuffix, positions, target }

def generatePipewireConf (alnum : Char → Bool) (config : Config) (target : Option String)
    (sinkPositions : List String) : Except Problem Conf := do
  let chosen := config.routes.foldl choose {}
  if chosen.pairRoutes.isEmpty then throw .noPairs
  let identityPairs := (config.routes.filter fun route => route.playback = route.output.toList).map (·.output)
  let sinks ← chosen.pairRoutes.mapM
    (loopback alnum (target.getD "FIXME-fireface-sink-node-name") sinkPositions)
  return { dropped := chosen.dropped,
           unfed := chosen.pairRoutes.filter fun route => !identityPairs.contains route.output,
           sinks }

end OscmixDesk.Pipewire
