/-
**Limits that span several settings** (`autogain.py`, `limits.py`).

An AutoSet that is on owns the gain of its channel, and through a link that of its partner: a
repair keeps such a gain (`retainedGains`), and a file that pins it is refused (`validateAutogain`).
Room EQ and Crossfeed run on a bounded number of outputs, a linked pair running Room EQ twice
(`validateDspLimits`).
-/

import OscmixDesk.Model.Errors

namespace OscmixDesk

/-! ### Reports -/

/-- A report of one register: its type tags and its arguments. -/
structure Report where
  tags : String
  args : Args
  deriving DecidableEq, Repr

/-- The last report of each register, where there is one. -/
abbrev Reports := Path → Option Report

/-- No register reported. -/
def noReports : Reports := fun _ => none

/-- A strict typed Boolean value, or unknown. -/
def flagValue (report : Option Report) : Option ℤ :=
  match report with
  | some ⟨tags, [.int value]⟩ =>
      if tags = "i" ∧ (value = 0 ∨ value = 1) then some value else none
  | _ => none

/-! ### AutoSet -/

/-- Whether the configuration is for the one device with AutoSet. -/
def autosetSupported (config : Config) : Bool :=
  (deviceForName config.deviceName).any (·.name = ucx2.name)

/-- The inputs with AutoSet. -/
def isAutosetChannel (channel : ℕ) : Bool :=
  1 ≤ channel && channel ≤ 4

/-- The input pairs whose gains, AutoSet flags or links the desk touches. -/
def autosetPairs (config : Config) : List ℕ :=
  if autosetSupported config then
    let declared := (config.channels.filter fun setting => setting.family = .input
      && (setting.option = .flat "gain" || setting.option = .flat "autoset")
      && isAutosetChannel setting.channel).map (pairLeft ·.channel)
    let routed := (config.routes.flatMap Route.input).filter isAutosetChannel |>.map pairLeft
    (declared ++ routed).dedup.insertionSort (· ≤ ·)
  else []

/-- The integer of a declared switch. -/
def declaredFlag : Value → Option ℤ
  | .int value => if value = 0 ∨ value = 1 then some value else none
  | .float (.finite value) => if value = 0 then some 0 else if value = 1 then some 1 else none
  | _ => none

def autosetPath (channel : ℕ) : Path :=
  .channel .input channel (.flat "autoset")

def gainPath (channel : ℕ) : Path :=
  .channel .input channel (.flat "gain")

/-- Prerequisites for configured gains, AutoSet and input-source links. -/
def dependencyPaths (config : Config) : List Path :=
  (autosetPairs config).flatMap fun left =>
    [autosetPath left, autosetPath (left + 1), .link .input left]

/-- The channels whose AutoSet the file switches on. -/
def declaredAutoset (config : Config) : List ℕ :=
  (config.channels.filter fun setting => setting.family = .input
    && setting.option = .flat "autoset" && declaredFlag setting.value = some 1).map (·.channel)

/-- Gain paths an operation must retain, including undeclared partners. -/
def retainedGains (config : Config) (latest : Reports) (linked : List Path)
    (useDeclarations : Bool := true) : List Path :=
  let declared := if useDeclarations then declaredAutoset config else []
  (autosetPairs config).flatMap fun left =>
    let owned := [left, left + 1].filter fun channel =>
      declared.contains channel || flagValue (latest (autosetPath channel)) ≠ some 0
    let joined := linked.contains (.link .input left)
      || flagValue (latest (.link .input left)) ≠ some 0
    (if !owned.isEmpty && joined then [left, left + 1] else owned).map gainPath

/-- The AutoSet pairs whose input routes are all mono. -/
def declaredMonoPairs (config : Config) : List ℕ :=
  [1, 3].filter fun left =>
    let widths := (config.routes.filter fun route =>
      route.kind = .input && pairLeft route.source.first = left).map (·.source.isPair)
    !widths.isEmpty && widths.all (· = false)

/-- The word of the `[pin]` section on an option. -/
def Config.pinned (config : Config) (family : Family) (option : String) : Option Policy :=
  config.policies.lookup (family, option)

/-- One setting's part of the AutoSet check: an AutoSet exists and is a switch, a gain exists. -/
def checkAutosetSetting (setting : ChannelSetting) : Except Fault Unit :=
  if setting.family ≠ .input then .ok ()
  else if setting.option = .flat "autoset" then
    if !isAutosetChannel setting.channel then .error (.config (.noAutoset setting.channel))
    else if declaredFlag setting.value = none then
      .error (.config (.autosetValue setting.channel))
    else .ok ()
  else if setting.option = .flat "gain" ∧ isAutosetChannel setting.channel then
    match optionRegister (some ucx2) .input (.flat "gain") setting.channel with
    | none => .error (.config (.noGain setting.channel))
    | some row => (orNumeric (numberValue setting.value row)).map fun _ => ()
  else .ok ()

/-- Rejects explicit gain-PIN and declared-AutoSet conflicts. -/
def validateAutogain (config : Config) : Except Fault Unit := do
  if !autosetSupported config then return ()
  config.channels.forM checkAutosetSetting
  if config.pinned .input "gain" ≠ some .pin then return ()
  let configured := (config.channels.filter fun setting => setting.family = .input
    && setting.option = .flat "gain" && isAutosetChannel setting.channel).map (·.channel)
  match (configured.dedup.insertionSort (· ≤ ·)).find? fun channel =>
      let left := pairLeft channel
      let affected := if (declaredMonoPairs config).contains left then [channel]
        else [left, left + 1]
      affected.any (declaredAutoset config).contains with
  | some channel => throw (.config (.gainPinConflict channel))
  | none => return ()

/-! ### DSP limits -/

/-- How many output channels may run each DSP feature at once. -/
structure DspLimits where
  roomeqChannels : ℕ
  crossfeedPairs : ℕ
  deriving DecidableEq, Repr

/-- Per device model; a model without an entry is not limited. -/
def dspLimits (name : String) : Option DspLimits :=
  if name = "Fireface UCX II" then some ⟨16, 4⟩ else none

/-- The limits of a configuration's device, and its outputs. -/
def limitsOf (config : Config) : Option (DspLimits × List ℕ) := do
  let device ← deviceForName config.deviceName
  let limits ← dspLimits config.deviceName
  return (limits, device.channelsFor "output")

/-- The first exceeded limit, counted over one state of the outputs: `roomeq` and `crossfeed` hold
the channels that are switched on, `linked` the odd outputs of linked pairs. -/
def dspProblem (limits : DspLimits) (roomeq crossfeed linked : List ℕ) : Option ConfigProblem :=
  let shared := linked.filter fun left => roomeq.contains left || roomeq.contains (left + 1)
  let rooms := (roomeq ++ shared.flatMap fun left => [left, left + 1]).dedup
  let pairs := (crossfeed.map pairLeft).dedup
  if limits.roomeqChannels < rooms.length then some (.roomeqLimit rooms)
  else if limits.crossfeedPairs < pairs.length then some (.crossfeedLimit pairs)
  else none

/-- The outputs a switch is declared on for, a later word on an output winning. -/
def declaredOn (config : Config) (option : String) : Except NumericProblem (List ℕ) := do
  let words ← (config.channels.filter fun setting => setting.family = .output
    && setting.option = .flat option).mapM fun setting => do
      return (setting.channel, ← integer setting.value)
  return (words.map Prod.fst).dedup.filter fun channel => words.reverse.lookup channel ≠ some 0

/-- The odd outputs of the pairs the routes link. -/
def declaredOutputLinks (config : Config) : List ℕ :=
  (allRequirements config.routes).filterMap fun requirement =>
    if requirement.family = .output && requirement.linked then some requirement.channel else none

/-- Refuses a configuration whose own declarations already exceed a limit. -/
def validateDspLimits (config : Config) : Except Fault Unit := do
  match limitsOf config with
  | none => return ()
  | some (limits, _) =>
      let roomeq ← orNumeric (declaredOn config "roomeq")
      let crossfeed ← orNumeric (declaredOn config "crossfeed")
      match dspProblem limits roomeq crossfeed (declaredOutputLinks config) with
      | some problem => throw (.config problem)
      | none => return ()

end OscmixDesk
