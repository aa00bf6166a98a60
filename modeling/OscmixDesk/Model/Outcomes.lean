/-
**Reporting a switch** (`outcome.py`, `profiles.py`).

An outcome is checked when it is built (`validate`): a record whose fields contradict each other raises a `ValueError`
where it is made, also behind the writes it should report. What happens around the connection is not the callers'
own, so a switch is given the answers it meets (`Answers`): why it is refused, how far its writes came, what its
read-back reported, and what became of the lease and the marker.
-/

import OscmixDesk.Model.Profiles

namespace OscmixDesk.Switching

/-! ### Outcomes -/

/-- The `reason` of an outcome whose read-back was never attempted. -/
def notCheckedText : String := "verification not requested"

/-- What a switch did. -/
structure Outcome where
  state : OutcomeState
  name : String
  reason : String := ""
  unverified : List Path := []
  unverifiable : List Path := []
  persisted : Bool := false
  durable : Bool := false
  readBack : Bool := false
  written : List Path := []
  unwritten : List Path := []
  reloadFailed : Bool := false
  mismatched : List Path := []
  unobserved : List Path := []
  invalid : List Path := []
  deriving DecidableEq, Repr

/-- Python's `set(first) == set(second)`. -/
def sameSet (first second : List Path) : Bool :=
  first.all second.contains && second.all first.contains

/-- Python's `set(first) <= set(second)`. -/
def subset (first second : List Path) : Bool :=
  first.all second.contains

/-- A rule: what it excludes raises its text. -/
def exclude (wrong : Bool) (text : String) : Except String Unit :=
  if wrong then throw text else return ()

namespace Outcome

/-- The rules of one state. -/
def validateState (outcome : Outcome) : Except String Unit :=
  match outcome.state with
  | .refused => do
      exclude (outcome.reason = "") "a refused or partial operation needs a reason"
      exclude (outcome.readBack || outcome.persisted)
        "a refused or partial operation cannot be read back or persisted"
      exclude (outcome.unverified ≠ []) "a refused operation has no unverified writes"
  | .writtenInPart => do
      exclude (outcome.reason = "") "a refused or partial operation needs a reason"
      exclude (outcome.readBack || outcome.persisted)
        "a refused or partial operation cannot be read back or persisted"
      exclude (outcome.written = []) "a partial operation must have submitted a write"
      exclude (!sameSet outcome.unverified (outcome.written ++ outcome.unwritten))
        "every submitted or pending path remains unverified after a partial operation"
  | .appliedVerified =>
      exclude (!outcome.readBack || outcome.unverified ≠ [] || outcome.mismatched ≠ [] || outcome.unobserved ≠ [])
        "a verified operation needs a complete, matching read-back"
  | .appliedMismatched =>
      exclude (!outcome.readBack || outcome.mismatched = [])
        "a mismatched operation needs a completed, differing read-back"
  | .appliedUnverified =>
      if outcome.mismatched ≠ [] then throw "known mismatches require APPLIED_MISMATCHED"
      else if outcome.readBack then
        exclude (outcome.unverified = []) "an unverified read-back must name its missing or differing paths"
      else exclude (outcome.reason = "") "an unread applied operation needs a reason"

/-- What a completed read-back adds. -/
def validateReadBack (outcome : Outcome) : Except String Unit := do
  exclude (!sameSet outcome.unverified (outcome.mismatched ++ outcome.unobserved))
    "unverified must include exactly mismatched and unobserved"
  exclude (!subset outcome.unverifiable outcome.unobserved) "unverifiable must be a subset of unobserved"

/-- The consistency rules of an outcome, in the order they are checked. -/
def validate (outcome : Outcome) : Except String Unit := do
  exclude (outcome.durable && !outcome.persisted) "a durable marker must be in effect"
  exclude (outcome.reloadFailed && outcome.state ≠ .writtenInPart && !outcome.persisted)
    "a reload failure requires a persisted or partial operation"
  exclude (!subset outcome.unverifiable outcome.unverified) "unverifiable must be a subset of unverified"
  exclude (outcome.unverifiable ≠ [] && !outcome.readBack)
    "an incomplete read-back cannot classify missing registers"
  exclude ((outcome.mismatched ≠ [] || outcome.unobserved ≠ [] || outcome.invalid ≠ []) && !outcome.readBack)
    "an incomplete read-back cannot classify register reports"
  exclude (!subset outcome.invalid outcome.mismatched) "invalid must be a subset of mismatched"
  exclude (outcome.mismatched.any outcome.unobserved.contains) "mismatched and unobserved must be disjoint"
  exclude (outcome.reason = notCheckedText && (outcome.readBack || outcome.state ≠ .appliedUnverified))
    "verification not requested requires an unread applied outcome"
  exclude (outcome.state ≠ .writtenInPart && (outcome.written ≠ [] || outcome.unwritten ≠ []))
    "written and unwritten belong only to WRITTEN_IN_PART"
  outcome.validateState
  if outcome.readBack then outcome.validateReadBack

/-- Building an outcome checks it. -/
def build (outcome : Outcome) : Except String Outcome := do
  outcome.validate
  return outcome

end Outcome

/-! ### What a switch meets -/

/-- An exception as its handlers word it: `str(exc)`, its `strerror`, and whether its `errno` is ENODEV. -/
structure Failure where
  message : String
  strerror : String := ""
  noDevice : Bool := false
  deriving DecidableEq, Repr

/-- Python's `exc.strerror or str(exc)`. -/
def Failure.words (failure : Failure) : String :=
  if failure.strerror = "" then failure.message else failure.strerror

/-- The reason of a refusal. -/
def Failure.refusal (failure : Failure) : String :=
  if failure.noDevice && failure.strerror ≠ "" then failure.strerror else failure.message

/-- How an application ends: in full, with a `WriteFailed` that says how far it came, or with another error. -/
inductive Application
  | done
  | failed (failure : Failure) (written unwritten : List Path)
  | raised (failure : Failure)
  deriving DecidableEq, Repr

/-- What a read-back meets: an `OSError`, a stop before its window, or the reports of its window. -/
inductive Reading
  | failed (failure : Failure)
  | stopped
  | reported (reports : List Message)
  deriving DecidableEq, Repr

/-- What a change of the marker achieved; only a change in effect is durable. -/
structure Marked where
  inEffect : Bool
  durable : Bool
  sound : durable = true → inEffect = true

/-- The answers one switch meets. -/
structure Answers where
  /-- An installation is incomplete. -/
  maintenance : Option String := none
  /-- Why the interface, its lock, its backend or the lease cannot be had. -/
  enters : Option Failure := none
  applies : Application := .done
  reads : Reading := .stopped
  /-- Why END is not acknowledged, or the connection not closed. -/
  finishes : Option Failure := none
  marks : Marked := ⟨true, true, fun _ => rfl⟩
  /-- Why the operation cannot be left; this error takes the place of an earlier one. -/
  leaves : Option Failure := none

/-- The failures among the answers. -/
def Answers.failures (answers : Answers) : List Failure :=
  answers.enters.toList
    ++ (match answers.applies with
      | .done => []
      | .failed failure _ _ => [failure]
      | .raised failure => [failure])
    ++ (match answers.reads with
      | .failed failure => [failure]
      | _ => [])
    ++ answers.finishes.toList ++ answers.leaves.toList

/-! ### The callers -/

/-- The desk a switch is for: its name, its expected registers and its device. -/
structure Target where
  label : String
  registers : List Expectation
  device : Option Device
  dependencies : List Path

namespace Target

variable (target : Target)

def refusedForTheDevice (reason : String) : Except String Outcome :=
  Outcome.build { state := .refused, name := target.label, reason }

/-- `_written`: the outcome of an application that failed part of the way. -/
def written (failure : Failure) (sent pending : List Path) : Except String Outcome :=
  let cause := "cannot complete backend writes (" ++ failure.words ++ ")"
  if sent = [] then Outcome.build { state := .refused, name := target.label, reason := cause }
  else Outcome.build {
    state := .writtenInPart, name := target.label, reason := cause, unverified := sent ++ pending,
    written := sent, unwritten := pending }

/-- The registers of the desk, none of them confirmed. -/
def unread (reason : String) : Except String Outcome :=
  Outcome.build {
    state := .appliedUnverified, name := target.label, reason,
    unverified := target.registers.map (·.path) }

/-- `verify_routing`, for the reports of its window. -/
def verifyResult : Option (List Message) → VerifyResult
  | none => { confirmed := [], mismatched := [], unobserved := (Keyed.ofList target.registers : Keyed
      Expectation.path).keys }
  | some reports => ((Observation.opened target.registers target.device target.dependencies
      loadPaths).absorbAll reports).result

/-- What `_check` makes of a completed read-back. -/
def classify (result : VerifyResult) : Except String Outcome :=
  let unverified := result.mismatched ++ result.unobserved
  if unverified = [] then
    Outcome.build { state := .appliedVerified, name := target.label, readBack := true }
  else
    let blind := result.unobserved.filter fun path => !everReported path target.device
    Outcome.build {
      state := if result.mismatched = [] then .appliedUnverified else .appliedMismatched
      name := target.label
      reason := if result.mismatched = [] then
          toString unverified.length ++ " unconfirmed, " ++ toString blind.length
            ++ " of them never reported by this backend"
        else toString result.mismatched.length ++ " mismatched, " ++ toString result.unobserved.length
          ++ " not observed, " ++ toString blind.length ++ " never reported by this backend"
      unverified
      unverifiable := blind
      readBack := true
      mismatched := result.mismatched
      unobserved := result.unobserved
      invalid := result.invalid }

/-- `_check`: a read-back that fails leaves every expectation unconfirmed. -/
def check : Reading → Except String Outcome
  | .failed failure => target.unread failure.words
  | .stopped => target.classify (target.verifyResult none)
  | .reported reports => target.classify (target.verifyResult (some reports))

/-- The end of an operation that applied its desk: what it found with the marker in it, or that it did not finish. -/
def commit (answers : Answers) (outcome : Outcome) : Except String Outcome := do
  let unfinished (failure : Failure) : Except String Outcome :=
    target.unread ("backend operation did not finish: " ++ failure.message)
  match answers.finishes with
  | some failure => unfinished (answers.leaves.getD failure)
  | none => do
      let marked ← Outcome.build
        { outcome with persisted := answers.marks.inEffect, durable := answers.marks.durable }
      match answers.leaves with
      | some failure => unfinished failure
      | none => return marked

/-- `_activate`. -/
def activate (answers : Answers) (verify : Bool) : Except String Outcome :=
  match answers.maintenance with
  | some problem => target.refusedForTheDevice
      (problem ++ "; complete installation recovery before activation")
  | none =>
      match answers.enters with
      | some failure => target.refusedForTheDevice failure.refusal
      | none =>
          match answers.applies with
          | .raised failure => target.refusedForTheDevice (answers.leaves.getD failure).refusal
          | .failed failure written unwritten => target.written failure written unwritten
          | .done => do
              let outcome ← if verify then target.check answers.reads else target.unread notCheckedText
              target.commit answers outcome

end Target

/-! ### The hand-over -/

/-- What the running service makes of a reload. -/
inductive Reload
  | done
  | notRunning
  | failed
  deriving DecidableEq, Repr

/-- The service as a switch finds it: the configuration it runs, where that can be told, whether two paths
are one file, and what a reload comes to. -/
structure Service where
  desk : Option String
  sameFile : String → String → Bool
  reload : Reload

/-- `_hand_over_to_the_unit`. -/
def handOver (service : Service) (configPath : Option String) (outcome : Outcome) : Except String Outcome :=
  if outcome.state = .refused then return outcome
  else if outcome.state ≠ .writtenInPart && !outcome.persisted then return outcome
  else
    let foreign := match configPath, service.desk with
      | some path, some desk => !service.sameFile path desk
      | _, _ => false
    if foreign then return outcome
    else match service.reload with
      | .done => return outcome
      | .notRunning => return outcome
      | .failed => Outcome.build { outcome with reloadFailed := true }

/-- A switch, and its hand-over. -/
def switchProfile (target : Target) (answers : Answers) (verify : Bool) (service : Service)
    (configPath : Option String) : Except String Outcome := do
  handOver service configPath (← target.activate answers verify)

end OscmixDesk.Switching
