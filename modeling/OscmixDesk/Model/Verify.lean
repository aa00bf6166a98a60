/-
**Reading the applied routing back** (`verify.py`).

A read-back classifies every expected register by the last report of one window: confirmed,
mismatched or unobserved (`verifyRouting`). A pinned register that is mismatched, or promptly reported
and missing, is a problem (`unconfirmed`). `verifyAndRepair` reads back at most twice, with one repair
between, and re-applies the matrix behind a read-back without a wrong link; `reconcileNow` re-applies
the pinned state and says whether a retained mute kept part of it from being written.
-/

import OscmixDesk.Model.Routing

namespace OscmixDesk

open Effects

/-! ### What is expected and what is reported -/

/-- The register state a configuration should produce. -/
def expectedRegisters (config : Config) : Except Fault (List Expectation) := do
  return ((← desired config).filter (·.compared)).map fun entry =>
    { path := entry.path, tags := entry.tags, args := entry.args }

/-- Whether the device reports the register at all. -/
def everReported (path : Path) (device : Option Device) : Bool :=
  match verifyClass device path with
  | some found => found = .verifiable
  | none =>
      match path with
      | .channel .playback _ setting => setting.last ≠ "stereo"
      | .mix _ .playback _ => false
      | _ => true

/-- Whether the model declares the path as something a configuration sets on a channel. -/
def isChannelState (device : Option Device) (path : Path) : Bool :=
  match registerAt device path with
  | none => false
  | some row => row.domain.isSome &&
      match row.template with
      | .channel .input _ => true
      | .channel .output _ => true
      | _ => false

/-- Whether an absent register is worth sending again. -/
def promptlyReported (path : Path) (device : Option Device) : Bool :=
  everReported path device && (!isChannelState device path || coldPlugComplete device path)

/-! ### The read-back -/

/-- What one read-back found of each register. -/
structure VerifyResult where
  confirmed : List Path
  mismatched : List Path
  unobserved : List Path
  invalid : List Path := []
  latest : Reports := noReports

/-- What a read-back keeps besides the expected registers. -/
def loadPaths : List Path := [.global "hardware" (some "dspload")]

/-- Whether the window has learned everything it can; a mismatch keeps it open. -/
def windowMayClose (observed : Observation) (prompt : List Path) : Bool :=
  observed.mismatched.card = 0
    && (observed.complete || (!prompt.isEmpty && prompt.all (· ∈ observed.confirmed)))

/-- The result of a window. -/
def Observation.result (observed : Observation) : VerifyResult where
  confirmed := observed.expected.keys.filter (· ∈ observed.confirmed)
  mismatched := observed.expected.keys.filter (· ∈ observed.mismatched)
  unobserved := observed.unobserved
  invalid := observed.expected.keys.filter (· ∈ observed.invalid)
  latest := observed.latest

/-- Compares the device's state with the expected registers. -/
def verifyRouting (world : World) (registers : List Expectation) (device : Option Device)
    (dependencies : List Path) : Act VerifyResult := do
  let observed := Observation.opened registers device dependencies loadPaths
  let prompt := observed.expected.keys.filter (everReported · device)
  if ← askStop world then
    return { confirmed := [], mismatched := [], unobserved := observed.expected.keys }
  requestDump world
  let deliveries := world.deliveries (← tick)
  let (closed, seen) ← watch world
    (fun seen => seen.dependenciesComplete && windowMayClose seen prompt) none observed [] deliveries
  record (.window seen)
  return closed.result

/-- The pinned registers that count as a problem worth sending again. -/
def unconfirmed (result : VerifyResult) (device : Option Device)
    (overrides : List ((Family × String) × Policy)) (retained : List Path) : List Path :=
  let insisted := result.mismatched.filter fun path =>
    !retained.contains path && policyFor path device overrides = .pin
  let lost := result.unobserved.filter fun path =>
    !retained.contains path && policyFor path device overrides = .pin
      && promptlyReported path device
  insisted ++ lost

/-- The links a configuration switches on that a read-back did not confirm. -/
def unconfirmedLinks (entries : List Entry) (confirmed : List Path) : List Path :=
  (entries.filter fun entry => entry.phase = .link && entry.args = [.int 1]
    && !confirmed.contains entry.path).map (·.path)

/-- The problems of a read-back. -/
def report (result : VerifyResult) (config : Config) (device : Option Device) :
    Except Fault (List Path) := do
  let linked := unconfirmedLinks (← desired config) result.confirmed
  let retained ← rememberedPaths config (some result.latest) linked
  return unconfirmed result device config.policies retained

/-- One read-back of everything a configuration asks for. -/
def readBack (world : World) (config : Config) : Act VerifyResult := do
  let registers ← planned (expectedRegisters config)
  verifyRouting world registers (deviceForName config.deviceName) (dependencyPaths config)

/-! ### Repair and reconcile -/

/-- Sleeps unless a stop is asked for; true where one was. -/
def waitUnlessStopped (world : World) : List (Option (List Message)) → Act Bool
  | [] => askStop world
  | delivery :: rest => do
      if ← askStop world then return true
      match delivery with
      | none => do
          close
          throw (.os .connection)
      | some _ => waitUnlessStopped world rest

/-- The links of a configuration. -/
def linkEntries (config : Config) : Except Fault (List Path) := do
  return ((← desired config).filter (·.phase = .link)).map (·.path)

/-- The reportable pinned registers a retained playback mute left unresolved. -/
def blockedPins (config : Config) (kept : List Path) (result : VerifyResult) : List Path :=
  let device := deviceForName config.deviceName
  (protectedEntries config kept result.confirmed).filter fun path =>
    (result.mismatched.contains path || result.unobserved.contains path)
      && policyFor path device config.policies = .pin && everReported path device

/-- Re-establishes the pinned registers; true once the selected plan is written. -/
def reconcileNow (world : World) (config : Config) : Act Bool := do
  let result ← readBack world config
  if ← askStop world then return false
  let kept ← planned (rememberedPaths config (some result.latest) [])
  let _ ← planned (report result config (deviceForName config.deviceName))
  let links ← planned (linkEntries config)
  applyRouting world config .reconcile (links.filter result.mismatched.contains) []
    result.confirmed (some result.latest)
  return (blockedPins config kept result).isEmpty

/-- The end of a read-back that asks for no repair: the matrix again, and the verdict. -/
def settleReadBack (world : World) (config : Config) (links problems : List Path)
    (result : VerifyResult) : Act (Option Bool) := do
  let wrongLinks := links.filter result.mismatched.contains
  if wrongLinks.isEmpty && !links.isEmpty then
    sendMix world config result.confirmed (some result.latest)
  return if problems.isEmpty then some wrongLinks.isEmpty else none

/-- Reads the applied routing back and sends it again once on problems. -/
def verifyAndRepair (world : World) (config : Config) : Act Bool := do
  let links ← planned (linkEntries config)
  if ← askStop world then return false
  let result ← readBack world config
  if ← askStop world then return false
  let problems ← planned (report result config (deviceForName config.deviceName))
  if problems.isEmpty then
    return (← settleReadBack world config links problems result).getD false
  if ← askStop world then return false
  applyRouting world config .repair (links.filter result.mismatched.contains) []
    result.confirmed (some result.latest)
  let settling := world.deliveries (← tick)
  if ← waitUnlessStopped world settling then return false
  if ← askStop world then return false
  let result ← readBack world config
  if ← askStop world then return false
  let problems ← planned (report result config (deviceForName config.deviceName))
  return (← settleReadBack world config links problems result).getD false

end OscmixDesk
