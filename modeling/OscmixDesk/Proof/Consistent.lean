/-
**Outcomes never contradict themselves.**

The rules of an outcome are a conjunction (`Consistent`), so a record that keeps them is built, and nothing else is.
What each caller builds keeps them: a refusal and a partial write by what they leave empty, a read-back because its
window sorts the registers. One refusal does not: its message is the text that is reserved for a switch nobody
asked to verify.

* `build_eq_ok` — a record is built as it is where it is consistent;
* `classify_ok`, `commit_ok`, `handOver_ok` — what a read-back, the marker and the hand-over build is consistent;
* `switchProfile_consistent` — what a switch reports behind its hand-over is;
* `outcomesConsistent` — a switch reports, whatever it meets.
-/

import OscmixDesk.Foundation.Checks
import OscmixDesk.Model.Outcomes
import OscmixDesk.Proof.LastReport

namespace OscmixDesk.Switching

open Checks

/-! ### The rules -/

theorem exclude_eq_ok {wrong : Bool} {text : String} : exclude wrong text = .ok () ↔ wrong = false := by
  cases wrong <;> simp [exclude, throw, throwThe, MonadExceptOf.throw, pure, Except.pure]

/-- Rules one after another: all of them are kept. -/
theorem andThen_eq_ok {α : Type} {first : Except String Unit} {next : Unit → Except String α} {result : α} :
    (first >>= next) = .ok result ↔ first = .ok () ∧ next () = .ok result := by
  rw [bind_eq_ok]
  exact ⟨fun ⟨⟨⟩, both⟩ => both, fun both => ⟨⟨⟩, both⟩⟩

theorem subset_iff {first second : List Path} : subset first second = true ↔ first ⊆ second := by
  simp [subset, List.subset_def]

theorem sameSet_iff {first second : List Path} :
    sameSet first second = true ↔ first ⊆ second ∧ second ⊆ first := by
  simp [sameSet, List.subset_def]

namespace Outcome

/-- The rules of one state, as what they say. -/
def StateRules (outcome : Outcome) : Prop :=
  match outcome.state with
  | .refused => outcome.reason ≠ "" ∧ outcome.readBack = false ∧ outcome.persisted = false
      ∧ outcome.unverified = []
  | .writtenInPart => outcome.reason ≠ "" ∧ outcome.readBack = false ∧ outcome.persisted = false
      ∧ outcome.written ≠ [] ∧ outcome.unverified ⊆ outcome.written ++ outcome.unwritten
      ∧ outcome.written ++ outcome.unwritten ⊆ outcome.unverified
  | .appliedVerified => outcome.readBack = true ∧ outcome.unverified = [] ∧ outcome.mismatched = []
      ∧ outcome.unobserved = []
  | .appliedMismatched => outcome.readBack = true ∧ outcome.mismatched ≠ []
  | .appliedUnverified => outcome.mismatched = [] ∧ (outcome.readBack = true → outcome.unverified ≠ [])
      ∧ (outcome.readBack = false → outcome.reason ≠ "")

/-- The rules of an outcome. -/
structure Consistent (outcome : Outcome) : Prop where
  durable : outcome.durable = true → outcome.persisted = true
  reload : outcome.reloadFailed = true → outcome.state = .writtenInPart ∨ outcome.persisted = true
  blind : outcome.unverifiable ⊆ outcome.unverified
  unread : outcome.readBack = false → outcome.unverifiable = [] ∧ outcome.mismatched = []
    ∧ outcome.unobserved = [] ∧ outcome.invalid = []
  invalid : outcome.invalid ⊆ outcome.mismatched
  apart : ∀ path ∈ outcome.mismatched, path ∉ outcome.unobserved
  reserved : outcome.reason = notCheckedText → outcome.readBack = false ∧ outcome.state = .appliedUnverified
  sent : outcome.state ≠ .writtenInPart → outcome.written = [] ∧ outcome.unwritten = []
  rules : outcome.StateRules
  complete : outcome.readBack = true → outcome.unverified ⊆ outcome.mismatched ++ outcome.unobserved
    ∧ outcome.mismatched ++ outcome.unobserved ⊆ outcome.unverified
    ∧ outcome.unverifiable ⊆ outcome.unobserved

theorem validateState_eq_ok {outcome : Outcome} : outcome.validateState = .ok () ↔ outcome.StateRules := by
  unfold validateState StateRules
  cases outcome.state with
  | refused => simp [andThen_eq_ok, exclude_eq_ok, and_assoc]
  | writtenInPart => simp [andThen_eq_ok, exclude_eq_ok, sameSet_iff, and_assoc]
  | appliedVerified => simp [exclude_eq_ok, and_assoc]
  | appliedMismatched => simp [exclude_eq_ok]
  | appliedUnverified =>
      dsimp only
      split_ifs with wrong read
      · simp [wrong]
      · simp [exclude_eq_ok, read, not_not.mp wrong]
      · simp [exclude_eq_ok, read, not_not.mp wrong]

/-- A record that keeps the rules passes, and no other does. -/
theorem validate_eq_ok {outcome : Outcome} : outcome.validate = .ok () ↔ outcome.Consistent := by
  unfold validate
  simp only [andThen_eq_ok, exclude_eq_ok, validateState_eq_ok]
  constructor
  · rintro ⟨durable, reload, blind, unread, unread', invalid, apart, reserved, sent, rules, complete⟩
    refine ⟨?_, ?_, ?_, ?_, ?_, ?_, ?_, ?_, rules, ?_⟩
    · simpa using durable
    · simpa [or_iff_not_imp_left] using reload
    · simpa [subset_iff] using blind
    · intro none
      simp [none] at unread unread'
      tauto
    · simpa [subset_iff] using invalid
    · simpa using apart
    · intro same
      simpa [same] using reserved
    · simpa [imp_iff_not_or] using sent
    · intro read
      rw [if_pos read] at complete
      simpa [validateReadBack, andThen_eq_ok, exclude_eq_ok, sameSet_iff, subset_iff, and_assoc] using complete
  · intro consistent
    obtain ⟨durable, reload, blind, unread, invalid, apart, reserved, sent, rules, complete⟩ := consistent
    refine ⟨?_, ?_, ?_, ?_, ?_, ?_, ?_, ?_, ?_, rules, ?_⟩
    · simpa using durable
    · simpa [or_iff_not_imp_left] using reload
    · simpa [subset_iff] using blind
    · cases read : outcome.readBack with
      | true => simp
      | false => simp [(unread read).1]
    · cases read : outcome.readBack with
      | true => simp
      | false => simp [(unread read).2]
    · simpa [subset_iff] using invalid
    · simpa using apart
    · by_cases same : outcome.reason = notCheckedText
      · simp [same, reserved same]
      · simp [same]
    · simpa [imp_iff_not_or] using sent
    · cases read : outcome.readBack with
      | true => simpa [validateReadBack, andThen_eq_ok, exclude_eq_ok, sameSet_iff, subset_iff, and_assoc]
          using complete read
      | false => rfl

/-- A record is built as it is, where it is consistent. -/
theorem build_eq_ok {outcome built : Outcome} :
    outcome.build = .ok built ↔ outcome.Consistent ∧ built = outcome := by
  unfold build
  rw [andThen_eq_ok, ← validate_eq_ok, pure_eq_ok]
  exact and_congr_right fun _ => eq_comm

end Outcome

/-! ### What the callers build -/

/-- A text with a character the reserved one lacks. -/
theorem ne_reserved {text : String} {c : Char} (member : c ∈ text.toList)
    (foreign : c ∉ notCheckedText.toList) : text ≠ "" ∧ text ≠ notCheckedText := by
  constructor
  · rintro rfl
    simp at member
  · rintro rfl
    exact foreign member

/-- An outcome of a desk that was applied, before its marker changes. -/
structure AppliedOutcome (outcome : Outcome) : Prop where
  consistent : outcome.Consistent
  applied : outcome.state ≠ .refused ∧ outcome.state ≠ .writtenInPart
  fresh : outcome.reloadFailed = false

theorem build_ok {outcome : Outcome} (consistent : outcome.Consistent) :
    ∃ built, outcome.build = .ok built ∧ built.Consistent :=
  ⟨outcome, Outcome.build_eq_ok.mpr ⟨consistent, rfl⟩, consistent⟩

theorem build_applied {outcome : Outcome} (consistent : outcome.Consistent)
    (applied : outcome.state ≠ .refused ∧ outcome.state ≠ .writtenInPart) (fresh : outcome.reloadFailed = false) :
    ∃ built, outcome.build = .ok built ∧ AppliedOutcome built :=
  ⟨outcome, Outcome.build_eq_ok.mpr ⟨consistent, rfl⟩, consistent, applied, fresh⟩

namespace Target

variable {target : Target}

theorem refused_ok {reason : String} (said : reason ≠ "") :
    (∃ outcome, target.refusedForTheDevice reason = .ok outcome) ↔ reason ≠ notCheckedText := by
  unfold refusedForTheDevice
  constructor
  · rintro ⟨outcome, built⟩ same
    have reserved := (Outcome.build_eq_ok.mp built).1.reserved same
    exact absurd reserved.2 OutcomeState.noConfusion
  · intro free
    refine ⟨_, Outcome.build_eq_ok.mpr ⟨?_, rfl⟩⟩
    constructor <;> simp [Outcome.StateRules, said, free]

/-- What is built is consistent. -/
theorem refused_consistent {reason : String} {outcome : Outcome}
    (built : target.refusedForTheDevice reason = .ok outcome) : outcome.Consistent := by
  obtain ⟨consistent, rfl⟩ := Outcome.build_eq_ok.mp built
  exact consistent

/-- A partial write, or one that was refused before its first request, is reported whatever the failure says. -/
theorem written_ok (failure : Failure) (sent pending : List Path) :
    ∃ outcome, target.written failure sent pending = .ok outcome ∧ outcome.Consistent := by
  unfold written
  have said := @ne_reserved ("cannot complete backend writes (" ++ failure.words ++ ")") '(' (by simp)
    (by decide)
  dsimp only
  split_ifs with none
  · apply build_ok
    constructor <;> simp [Outcome.StateRules, said]
  · apply build_ok
    constructor <;> simp [Outcome.StateRules, said, none]

/-- An application that was not read back is reported whatever the reason. -/
theorem unread_ok {reason : String} (said : reason ≠ "") :
    ∃ outcome, target.unread reason = .ok outcome ∧ AppliedOutcome outcome := by
  refine build_applied ?_ (by simp) rfl
  constructor <;> simp [Outcome.StateRules, said]

/-- A window sorts the registers. -/
theorem verifyResult_sound (reports : Option (List Message)) :
    (∀ path ∈ (target.verifyResult reports).mismatched, path ∉ (target.verifyResult reports).unobserved)
      ∧ (target.verifyResult reports).invalid ⊆ (target.verifyResult reports).mismatched := by
  cases reports with
  | none => exact ⟨fun path member => absurd member List.not_mem_nil, List.nil_subset _⟩
  | some reports =>
      unfold verifyResult
      dsimp only
      have sorted := (Observation.sorted_opened target.registers target.device target.dependencies
        loadPaths).absorbAll reports
      generalize Observation.absorbAll _ reports = observed at sorted
      unfold Observation.result
      constructor
      · intro path member silent
        have contradicted := (List.mem_filter.mp member).2
        exact ((Observation.mem_unobserved _ _).mp silent).2.2 (of_decide_eq_true contradicted)
      · intro path member
        obtain ⟨known, wrong⟩ := List.mem_filter.mp member
        exact List.mem_filter.mpr ⟨known, decide_eq_true (sorted.invalid (of_decide_eq_true wrong))⟩

/-- A read-back is reported whatever it found. -/
theorem classify_ok (reports : Option (List Message)) :
    ∃ outcome, target.classify (target.verifyResult reports) = .ok outcome ∧ AppliedOutcome outcome := by
  obtain ⟨apart, invalid⟩ := @verifyResult_sound target reports
  generalize target.verifyResult reports = result at apart invalid
  unfold classify
  dsimp only
  by_cases clean : result.mismatched ++ result.unobserved = []
  · rw [if_pos clean]
    refine build_applied ?_ (by simp) rfl
    constructor <;> simp [Outcome.StateRules, notCheckedText]
  · rw [if_neg clean]
    have blind : (result.unobserved.filter fun path => !everReported path target.device)
        ⊆ result.mismatched ++ result.unobserved :=
      fun path member => List.mem_append_right _ (List.mem_filter.mp member).1
    by_cases whole : result.mismatched = []
    · rw [if_pos whole, if_pos whole]
      have said (unverified blind : ℕ) := @ne_reserved (toString unverified ++ " unconfirmed, "
        ++ toString blind ++ " of them never reported by this backend") ',' (by simp) (by decide)
      refine build_applied ⟨by simp, by simp, blind, by simp, invalid, apart,
        fun same => absurd same (said _ _).2, by simp, ⟨whole, fun _ => clean, by simp⟩, ?_⟩ (by simp) rfl
      exact fun _ => ⟨fun _ member => member, fun _ member => member, List.filter_subset_self _⟩
    · rw [if_neg whole, if_neg whole]
      have said (mismatched unobserved blind : ℕ) := @ne_reserved (toString mismatched ++ " mismatched, "
        ++ toString unobserved ++ " not observed, " ++ toString blind ++ " never reported by this backend") ','
        (by simp) (by decide)
      refine build_applied ⟨by simp, by simp, blind, by simp, invalid, apart,
        fun same => absurd same (said _ _ _).2, by simp, ⟨rfl, whole⟩, ?_⟩ (by simp) rfl
      exact fun _ => ⟨fun _ member => member, fun _ member => member, List.filter_subset_self _⟩

theorem check_ok (reading : Reading) (spoken : ∀ failure, reading = .failed failure → failure.message ≠ "") :
    ∃ outcome, target.check reading = .ok outcome ∧ AppliedOutcome outcome := by
  cases reading with
  | failed failure =>
      apply unread_ok
      unfold Failure.words
      split_ifs with silent
      · exact spoken failure rfl
      · exact silent
  | stopped => exact classify_ok none
  | reported reports => exact classify_ok (some reports)

/-- The marker, or an operation that did not finish, is reported whatever the outcome before. -/
theorem commit_ok (answers : Answers) {outcome : Outcome} (applied : AppliedOutcome outcome) :
    ∃ final, target.commit answers outcome = .ok final ∧ final.Consistent := by
  obtain ⟨consistent, ⟨notRefused, notPartial⟩, fresh⟩ := applied
  have unfinished (failure : Failure) : ∃ final,
      target.unread ("backend operation did not finish: " ++ failure.message) = .ok final ∧ final.Consistent := by
    have said := @ne_reserved ("backend operation did not finish: " ++ failure.message) ':' (by simp) (by decide)
    obtain ⟨final, built, applied⟩ := @unread_ok target _ said.1
    exact ⟨final, built, applied.consistent⟩
  unfold commit
  cases answers.finishes with
  | some failure => exact unfinished _
  | none =>
      have marked : Outcome.Consistent
          { outcome with persisted := answers.marks.inEffect, durable := answers.marks.durable } := by
        refine ⟨answers.marks.sound, fun failed => absurd (fresh.symm.trans failed) Bool.false_ne_true,
          consistent.blind, consistent.unread, consistent.invalid, consistent.apart, consistent.reserved,
          consistent.sent, ?_, consistent.complete⟩
        have rules := consistent.rules
        unfold Outcome.StateRules at rules ⊢
        cases known : outcome.state with
        | refused => exact absurd known notRefused
        | writtenInPart => exact absurd known notPartial
        | appliedVerified => simpa [known] using rules
        | appliedMismatched => simpa [known] using rules
        | appliedUnverified => simpa [known] using rules
      have built := Outcome.build_eq_ok.mpr ⟨marked, rfl⟩
      dsimp only
      rw [built]
      cases answers.leaves with
      | some failure => exact unfinished failure
      | none => exact ⟨_, rfl, marked⟩

end Target

/-- The words of what refused a switch before it wrote anything. -/
def Answers.refusal (answers : Answers) : Option String :=
  if answers.maintenance.isSome then none
  else match answers.enters, answers.applies with
    | some failure, _ => some failure.refusal
    | none, .raised failure => some (answers.leaves.getD failure).refusal
    | none, _ => none

theorem refusal_spoken {failure : Failure} (spoken : failure.message ≠ "") : failure.refusal ≠ "" := by
  unfold Failure.refusal
  split_ifs with known
  · simp only [Bool.and_eq_true, decide_eq_true_eq] at known
    exact known.2
  · exact spoken

/-- A refusal is reported, or it is one in the reserved words. -/
theorem refused_cases (target : Target) {reason : String} (said : reason ≠ "") :
    (reason ≠ notCheckedText ∧ ∃ outcome, target.refusedForTheDevice reason = .ok outcome ∧ outcome.Consistent)
      ∨ reason = notCheckedText ∧ ¬ ∃ outcome, target.refusedForTheDevice reason = .ok outcome := by
  by_cases same : reason = notCheckedText
  · exact Or.inr ⟨same, fun reported => (Target.refused_ok said).mp reported same⟩
  · obtain ⟨outcome, built⟩ := (@Target.refused_ok target reason said).mpr same
    exact Or.inl ⟨same, outcome, built, Target.refused_consistent built⟩

/-- A switch reports, or it was refused in the reserved words. -/
theorem activate_cases (target : Target) (answers : Answers) (verify : Bool)
    (spoken : ∀ failure ∈ answers.failures, failure.message ≠ "") :
    (answers.refusal ≠ some notCheckedText
        ∧ ∃ outcome, target.activate answers verify = .ok outcome ∧ outcome.Consistent)
      ∨ answers.refusal = some notCheckedText ∧ ¬ ∃ outcome, target.activate answers verify = .ok outcome := by
  unfold Target.activate Answers.refusal
  cases fenced : answers.maintenance with
  | some problem =>
      left
      have said := @ne_reserved (problem ++ "; complete installation recovery before activation") ';' (by simp)
        (by decide)
      obtain ⟨-, reported⟩ := (refused_cases target said.1).resolve_right fun reserved => said.2 reserved.1
      exact ⟨by simp, reported⟩
  | none =>
      -- a plain refusal, in the words of the failure
      have plain (failure : Failure) (member : failure ∈ answers.failures) :
          (some failure.refusal ≠ some notCheckedText
              ∧ ∃ outcome, target.refusedForTheDevice failure.refusal = .ok outcome ∧ outcome.Consistent)
            ∨ some failure.refusal = some notCheckedText
              ∧ ¬ ∃ outcome, target.refusedForTheDevice failure.refusal = .ok outcome := by
        rcases refused_cases target (refusal_spoken (spoken failure member))
          with ⟨free, reported⟩ | ⟨same, silent⟩
        · exact Or.inl ⟨fun same => free (Option.some.inj same), reported⟩
        · exact Or.inr ⟨congrArg some same, silent⟩
      cases entered : answers.enters with
      | some failure => exact plain failure (by simp [Answers.failures, entered])
      | none =>
          cases applied : answers.applies with
          | raised failure =>
              apply plain
              cases left : answers.leaves with
              | none => simp [Answers.failures, applied]
              | some later => simp [Answers.failures, left]
          | failed failure sent pending =>
              left
              exact ⟨by simp, target.written_ok failure sent pending⟩
          | done =>
              left
              refine ⟨by simp, ?_⟩
              dsimp only
              cases verify with
              | true =>
                  obtain ⟨outcome, built, found⟩ := @Target.check_ok target answers.reads fun failure known =>
                    spoken failure (by simp [Answers.failures, known])
                  rw [if_pos rfl, built]
                  exact target.commit_ok answers found
              | false =>
                  obtain ⟨outcome, built, found⟩ := @Target.unread_ok target notCheckedText (by decide)
                  rw [if_neg Bool.false_ne_true, built]
                  exact target.commit_ok answers found

/-- The hand-over of a consistent outcome is one. -/
theorem handOver_ok (service : Service) (configPath : Option String) {outcome : Outcome}
    (consistent : outcome.Consistent) :
    ∃ final, handOver service configPath outcome = .ok final ∧ final.Consistent := by
  unfold handOver
  dsimp only
  split_ifs with refused kept foreign
  · exact ⟨outcome, rfl, consistent⟩
  · exact ⟨outcome, rfl, consistent⟩
  · exact ⟨outcome, rfl, consistent⟩
  · cases service.reload with
    | done => exact ⟨outcome, rfl, consistent⟩
    | notRunning => exact ⟨outcome, rfl, consistent⟩
    | failed =>
        apply build_ok
        refine ⟨consistent.durable, fun _ => ?_, consistent.blind, consistent.unread, consistent.invalid,
          consistent.apart, consistent.reserved, consistent.sent, consistent.rules, consistent.complete⟩
        by_contra neither
        apply kept
        simpa [not_or] using neither

/-- A switch that reports hands its report over. -/
theorem switchProfile_eq {target : Target} {answers : Answers} {verify : Bool} {outcome : Outcome}
    {service : Service} {configPath : Option String} (done : target.activate answers verify = .ok outcome) :
    switchProfile target answers verify service configPath = handOver service configPath outcome := by
  unfold switchProfile
  rw [done]
  rfl

/-- What a switch reports behind its hand-over is consistent. -/
theorem switchProfile_consistent {target : Target} {answers : Answers} {verify : Bool} {service : Service}
    {configPath : Option String} {final : Outcome} (spoken : ∀ failure ∈ answers.failures, failure.message ≠ "")
    (reported : switchProfile target answers verify service configPath = .ok final) : final.Consistent := by
  obtain ⟨outcome, done, handed⟩ := bind_eq_ok.mp reported
  rcases activate_cases target answers verify spoken with ⟨-, other, done', consistent⟩ | ⟨-, silent⟩
  · obtain rfl : outcome = other := Except.ok.inj (done.symm.trans done')
    obtain ⟨same, handed', kept⟩ := handOver_ok service configPath consistent
    obtain rfl : final = same := Except.ok.inj (handed.symm.trans handed')
    exact kept
  · exact absurd ⟨outcome, done⟩ silent

/-- **Outcomes never contradict themselves.** Whatever a switch meets, with failures that have a message: the outcome
of a partial write and that of a read-back keep the rules, and the switch and its hand-over report outcomes that
keep them — unless the switch was refused before it wrote, in the very words reserved for a read-back nobody
asked for. -/
theorem outcomesConsistent (target : Target) (answers : Answers) (verify : Bool)
    (spoken : ∀ failure ∈ answers.failures, failure.message ≠ "") :
    (∀ failure sent pending, ∃ outcome, target.written failure sent pending = .ok outcome
        ∧ outcome.validate = .ok ())
      ∧ (∃ outcome, target.check answers.reads = .ok outcome ∧ outcome.validate = .ok ())
      ∧ ((∃ outcome, target.activate answers verify = .ok outcome) ↔ answers.refusal ≠ some notCheckedText)
      ∧ ∀ outcome, target.activate answers verify = .ok outcome → outcome.validate = .ok ()
        ∧ ∀ service configPath, ∃ final, handOver service configPath outcome = .ok final
          ∧ final.validate = .ok () := by
  refine ⟨fun failure sent pending => ?_, ?_, ?_, fun outcome done => ?_⟩
  · obtain ⟨outcome, built, consistent⟩ := @Target.written_ok target failure sent pending
    exact ⟨outcome, built, Outcome.validate_eq_ok.mpr consistent⟩
  · obtain ⟨outcome, built, found⟩ := @Target.check_ok target answers.reads fun failure known =>
      spoken failure (by simp [Answers.failures, known])
    exact ⟨outcome, built, Outcome.validate_eq_ok.mpr found.consistent⟩
  · rcases activate_cases target answers verify spoken with ⟨free, outcome, done, -⟩ | ⟨reserved, silent⟩
    · exact ⟨fun _ => free, fun _ => ⟨outcome, done⟩⟩
    · exact ⟨fun reported => absurd reported silent, fun free => absurd reserved free⟩
  · rcases activate_cases target answers verify spoken with ⟨-, other, done', consistent⟩ | ⟨-, silent⟩
    · obtain rfl : outcome = other := Except.ok.inj (done.symm.trans done')
      refine ⟨Outcome.validate_eq_ok.mpr consistent, fun service configPath => ?_⟩
      obtain ⟨final, handed, kept⟩ := handOver_ok service configPath consistent
      exact ⟨final, handed, Outcome.validate_eq_ok.mpr kept⟩
    · exact absurd ⟨outcome, done⟩ silent

/-- A desk of two faders. -/
def twoFaders : Target :=
  ⟨"desk", [⟨.volume 3, "f", [.real (-10)]⟩, ⟨.volume 4, "f", [.real (-10)]⟩], some ucx2, []⟩

/-- The second write is not acknowledged. -/
def brokenOff : Answers :=
  { applies := .failed { message := "timed out" } [.volume 3] [.volume 4] }

/-- The second fader is read elsewhere. -/
def contradicted : Answers :=
  { reads := .reported [⟨.volume 3, "f", [.real (-10)]⟩, ⟨.volume 4, "f", [.real (-20)]⟩] }

/-- The service does not take the desk over. -/
def deafService : Service := ⟨none, fun _ _ => false, .failed⟩

/-- What the switch reports of the write that broke off. -/
def brokenOffReport : Outcome where
  state := .writtenInPart
  name := "desk"
  reason := "cannot complete backend writes (timed out)"
  unverified := [.volume 3, .volume 4]
  written := [.volume 3]
  unwritten := [.volume 4]

/-- What it reports of the fader that was read elsewhere. -/
def contradictedReport : Outcome where
  state := .appliedMismatched
  name := "desk"
  reason := "1 mismatched, 0 not observed, 0 never reported by this backend"
  unverified := [.volume 4]
  persisted := true
  durable := true
  readBack := true
  mismatched := [.volume 4]

/-- A write that broke off and a fader that was read elsewhere, behind a service that does not take the desk over:
what is reported of either is consistent. -/
theorem outcomesConsistent_deafService :
    (twoFaders.activate brokenOff true = .ok brokenOffReport
        ∧ ∃ final, switchProfile twoFaders brokenOff true deafService none = .ok final
          ∧ final.reloadFailed = true ∧ final.validate = .ok ())
      ∧ twoFaders.activate contradicted true = .ok contradictedReport
        ∧ ∃ final, switchProfile twoFaders contradicted true deafService none = .ok final
          ∧ final.reloadFailed = true ∧ final.validate = .ok () := by
  have broken : twoFaders.activate brokenOff true = .ok brokenOffReport := by decide +kernel
  have differs : twoFaders.activate contradicted true = .ok contradictedReport := by decide +kernel
  refine ⟨⟨broken, ?_⟩, differs, ?_⟩
  · have kept := (outcomesConsistent twoFaders brokenOff true (by decide)).2.2.2 _ broken
    obtain ⟨final, handed, valid⟩ := kept.2 deafService none
    refine ⟨final, (switchProfile_eq broken).trans handed, ?_, valid⟩
    cases handed
    rfl
  · have kept := (outcomesConsistent twoFaders contradicted true (by decide)).2.2.2 _ differs
    obtain ⟨final, handed, valid⟩ := kept.2 deafService none
    refine ⟨final, (switchProfile_eq differs).trans handed, ?_, valid⟩
    cases handed
    rfl

/-- A desk without registers. -/
def emptyDesk : Target := ⟨"desk", [], none, []⟩

/-- An interface that cannot be had. -/
def unreachable (message : String) : Answers := { enters := some { message } }

/-- **A refusal in the reserved words is not reported.** -/
theorem reserved_refusal : ¬ ∀ (target : Target) (answers : Answers) (verify : Bool),
    (∀ failure ∈ answers.failures, failure.message ≠ "") →
    ∃ outcome, target.activate answers verify = .ok outcome ∧ outcome.validate = .ok () := by
  intro reported
  obtain ⟨outcome, done, -⟩ := reported emptyDesk (unreachable notCheckedText) true (by decide)
  cases done

end OscmixDesk.Switching
