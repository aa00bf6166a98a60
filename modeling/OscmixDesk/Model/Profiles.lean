/-
**Selecting a desk** (`profiles.py`, `outcome.py`).

A profile switch, or a restore of the main desk, is one operation: it opens the interface, takes the
lease, applies the desk, reads it back, and acknowledges the end of the lease before the marker of the
active profile changes (`activate`). What it did is an `Outcome`: refused, written in part, or applied
with what the read-back found.
-/

import OscmixDesk.Model.Verify

namespace OscmixDesk

open Effects

/-! ### Outcomes -/

/-- The five results of selecting a desk. -/
inductive OutcomeState
  | appliedVerified
  | appliedUnverified
  | appliedMismatched
  | refused
  | writtenInPart
  deriving DecidableEq, Repr

/-- What the reason of an outcome says. -/
inductive Reason
  | none
  | maintenance
  | config (problem : ConfigProblem)
  | cause (cause : Cause)
  | notChecked
  | unverifiable (cause : Cause)
  | differing (mismatched unobserved blind : ℕ)
  | unconfirmed (unverified blind : ℕ)
  | notFinished
  deriving DecidableEq, Repr

/-- What a switch did. -/
structure Outcome where
  state : OutcomeState
  reason : Reason := .none
  unverified : List Path := []
  unverifiable : List Path := []
  /-- Whether the marker records the intended selection. -/
  persisted : Bool := false
  durable : Bool := false
  readBack : Bool := false
  written : List Path := []
  unwritten : List Path := []
  mismatched : List Path := []
  unobserved : List Path := []
  invalid : List Path := []
  deriving DecidableEq, Repr

/-! ### The operation -/

/-- The answers of the machine around the connection. -/
structure Host where
  /-- An installation is incomplete. -/
  maintenance : Bool
  /-- Why the interface, its lock, its backend or the lease cannot be had. -/
  refuses : Option Cause
  /-- END is acknowledged. -/
  ends : Bool
  /-- The marker can be changed, and the change was synced. -/
  marks : Bool
  syncs : Bool

/-- The state of one selection. -/
structure Selection where
  session : Session := {}
  /-- The name the marker holds. -/
  marker : Option String := none
  /-- END was acknowledged. -/
  ended : Bool := false
  deriving DecidableEq, Repr

abbrev Select := Prog Selection Raised

/-- What an operation on the connection does to a selection. -/
def onSession {α : Type} (act : Act α) : Select α := fun selection =>
  ((act selection.session).1, { selection with session := (act selection.session).2 })

/-- Acknowledges END, on a connection that still holds the lease. -/
def finish (host : Host) : Select Unit := fun selection =>
  if selection.session.lease && host.ends then (.ok (), { selection with ended := true })
  else (.error (.os .connection), selection)

/-- Records the selection, or that the main desk is selected. -/
def mark (host : Host) (name : Option String) : Select Unit :=
  Prog.update fun selection =>
    ((), if host.marks then { selection with marker := name } else selection)

/-- A read-back as an outcome. -/
def VerifyResult.outcome (result : VerifyResult) (device : Option Device) : Outcome :=
  let unverified := result.mismatched ++ result.unobserved
  let blind := result.unobserved.filter fun path => !everReported path device
  if unverified.isEmpty then { state := .appliedVerified, readBack := true }
  else
    { state := if result.mismatched.isEmpty then .appliedUnverified else .appliedMismatched
      reason :=
        if result.mismatched.isEmpty then .unconfirmed unverified.length blind.length
        else .differing result.mismatched.length result.unobserved.length blind.length
      unverified := unverified
      unverifiable := blind
      readBack := true
      mismatched := result.mismatched
      unobserved := result.unobserved
      invalid := result.invalid }

/-- Classifies a strict read-back; one that fails leaves every expectation unconfirmed. -/
def checkApplied (world : World) (config : Config) : Select Outcome := do
  let registers ← onSession (planned (expectedRegisters config))
  tryCatch (do
      let result ← onSession (readBack world config)
      return result.outcome (deviceForName config.deviceName))
    fun problem =>
      match problem with
      | .os cause => return {
          state := .appliedUnverified, reason := .unverifiable cause,
          unverified := registers.map (·.path) }
      | other => throw other

/-- The outcome of a selection that asks for no read-back. -/
def unchecked (config : Config) : Select Outcome := do
  let registers ← onSession (planned (expectedRegisters config))
  return {
    state := .appliedUnverified, reason := .notChecked, unverified := registers.map (·.path) }

/-- The outcome of an application, read back where that is asked for. -/
def appliedOutcome (world : World) (config : Config) (verify : Bool) : Select Outcome :=
  if verify then checkApplied world config else unchecked config

/-- The outcome of an application that raised. -/
def notWritten : Raised → Option Outcome
  | .os cause => some { state := .refused, reason := .cause cause }
  | .writeFailed cause [] _ => some { state := .refused, reason := .cause cause }
  | .writeFailed cause written unwritten => some {
      state := .writtenInPart, reason := .cause cause, unverified := written ++ unwritten, written,
      unwritten }
  | .fault (.config problem) => some { state := .refused, reason := .config problem }
  | .fault (.value _) => none

/-- The read-back, the end of the lease and the marker. -/
def commit (world : World) (host : Host) (config : Config) (name : Option String)
    (verify : Bool) : Select Outcome := do
  let outcome ← appliedOutcome world config verify
  finish host
  mark host name
  return { outcome with persisted := host.marks, durable := host.marks && host.syncs }

/-- The outcome of an operation that applied its desk and did not finish. -/
def notFinished (config : Config) : Outcome where
  state := .appliedUnverified
  reason := .notFinished
  unverified := ((expectedRegisters config).toOption.getD []).map (·.path)

/-- Opens the interface and takes the lease. -/
def openDesk (host : Host) (config : Config) : Act Unit := do
  let _ ← planned (desired config)
  match host.refuses with
  | some cause => throw (.os cause)
  | none => return ()

/-- The application of a desk: nothing, or the outcome of one that failed. -/
def applied (world : World) (host : Host) (config : Config) : Select (Option Outcome) :=
  tryCatch (do
      onSession (openDesk host config)
      onSession (applyRouting world config .explicit [] [] [] none)
      return none)
    fun problem =>
      match notWritten problem with
      | some outcome => return some outcome
      | none => throw problem

/-- Applies a desk, reads it back and commits the selection; no name is the main desk. A bug of the
planner leaves as it is. -/
def activate (world : World) (host : Host) (config : Config) (name : Option String)
    (verify : Bool) : Select Outcome := do
  if host.maintenance then return { state := .refused, reason := .maintenance }
  match ← applied world.unstopped host config with
  | some outcome => return outcome
  | none =>
      tryCatch (commit world.unstopped host config name verify) fun problem =>
        match problem with
        | .fault (.value problem) => throw (.fault (.value problem))
        | _ => return notFinished config

end OscmixDesk
