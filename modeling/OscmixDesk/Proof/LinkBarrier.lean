/-
**The mix waits for the links** (`routing.py`).

Where the backend learns a link from the report of it only, a barrier stands between the links and the mix: a
window on the links of the outputs and on those that must be confirmed. The mix goes out only behind a barrier
that was crossed:

* `crossTheBarrier_ends` — the barrier is crossed where no stop was asked, the window ended without a lost
  connection and with no last report against a link, and, where confirmation is required, with every link
  confirmed;
* `comesTo` — a plan comes to a phase with everything before it out, or fails with everything from it pending;
* `mixWaits` — every run of a plan has crossed the barrier, or has sent nothing of the mix and of what follows.
-/

import OscmixDesk.Proof.LastReport
import OscmixDesk.Proof.Sending

namespace OscmixDesk

open Effects

/-! ### What a window decided -/

namespace Observation

/-- Whether a report agrees with what is expected of its register. -/
def Agrees (expected : Keyed Expectation.path) (report : Message) : Prop :=
  ∃ expectation, expected.get? report.path = some expectation ∧ validReport none expectation report = true
    ∧ matchesReport expectation.tags expectation.args report.args none (registerAt none report.path) = true

section Window

variable {expected : List Expectation} {paths noted : List Path} {reports : List Message} {path : Path}

theorem mem_confirmed_single {report : Message} :
    report.path ∈ ((opened expected none paths noted).absorb report).confirmed
      ↔ Agrees (Keyed.ofList expected) report := by
  unfold absorb Agrees
  cases known : (Keyed.ofList expected : Keyed Expectation.path).get? report.path with
  | none =>
      simp only [opened, known]
      split_ifs <;> simp
  | some expectation =>
      have free : unobservable none report.path = false := rfl
      by_cases agrees : validReport none expectation report = true
          ∧ matchesReport expectation.tags expectation.args report.args none (registerAt none report.path) = true
      · simp [opened, known, free, agrees]
      · simp [opened, known, free, agrees]

theorem mem_mismatched_single {report : Message} :
    report.path ∈ ((opened expected none paths noted).absorb report).mismatched
      ↔ report.path ∈ (Keyed.ofList expected : Keyed Expectation.path).keys
        ∧ ¬ Agrees (Keyed.ofList expected) report := by
  unfold absorb Agrees
  cases known : (Keyed.ofList expected : Keyed Expectation.path).get? report.path with
  | none =>
      have missing := (Keyed.get?_eq_none _ _).mp known
      simp only [opened, known, missing, false_and, iff_false]
      split_ifs <;> simp
  | some expectation =>
      have free : unobservable none report.path = false := rfl
      have held : report.path ∈ (Keyed.ofList expected : Keyed Expectation.path).keys := by
        by_contra missing
        rw [(Keyed.get?_eq_none _ _).mpr missing] at known
        cases known
      by_cases agrees : validReport none expectation report = true
          ∧ matchesReport expectation.tags expectation.args report.args none (registerAt none report.path) = true
      · simp [opened, known, free, held, agrees]
      · simp [opened, known, free, held, agrees]

/-- A register is confirmed by a last report that agrees. -/
theorem mem_confirmed_iff :
    path ∈ ((opened expected none paths noted).absorbAll reports).confirmed
      ↔ ∃ report, lastOf Message.path path reports = some report
        ∧ Agrees (Keyed.ofList expected) report := by
  rw [← mem_focused_confirmed, focused_absorbAll, mem_focused_confirmed]
  cases last : lastOf Message.path path reports with
  | none => simp [absorbAll, opened]
  | some report =>
      obtain rfl := key_lastOf last
      simp only [Option.toList_some, absorbAll, List.foldl_cons, List.foldl_nil, Option.some.injEq,
        exists_eq_left']
      exact mem_confirmed_single

/-- A register is contradicted by a last report that does not. -/
theorem mem_mismatched_iff :
    path ∈ ((opened expected none paths noted).absorbAll reports).mismatched
      ↔ path ∈ (Keyed.ofList expected : Keyed Expectation.path).keys
        ∧ ∃ report, lastOf Message.path path reports = some report
          ∧ ¬ Agrees (Keyed.ofList expected) report := by
  rw [← mem_focused_mismatched, focused_absorbAll, mem_focused_mismatched]
  cases last : lastOf Message.path path reports with
  | none => simp [absorbAll, opened]
  | some report =>
      obtain rfl := key_lastOf last
      simp only [Option.toList_some, absorbAll, List.foldl_cons, List.foldl_nil, Option.some.injEq,
        exists_eq_left']
      exact mem_mismatched_single

/-- A window is complete once every expected register is confirmed. -/
theorem complete_iff :
    ((opened expected none paths noted).absorbAll reports).complete = true
      ↔ ∀ path ∈ (Keyed.ofList expected : Keyed Expectation.path).keys,
        ∃ report, lastOf Message.path path reports = some report ∧ Agrees (Keyed.ofList expected) report := by
  generalize held : (opened expected none paths noted).absorbAll reports = observed
  have keys : observed.expected = Keyed.ofList expected := by
    rw [← held]
    exact (absorbAll_window _ reports).1
  have among : observed.confirmed ⊆ (Keyed.ofList expected : Keyed Expectation.path).keys.toFinset := by
    intro path member
    rw [List.mem_toFinset, ← keys]
    have sorted : Sorted observed := held ▸ (sorted_opened expected none paths noted).absorbAll reports
    exact sorted.confirmed path member
  have size := List.toFinset_card_of_nodup (Keyed.ofList expected : Keyed Expectation.path).distinct
  have each (path : Path) : path ∈ observed.confirmed ↔ ∃ report,
      lastOf Message.path path reports = some report ∧ Agrees (Keyed.ofList expected) report := by
    rw [← held]
    exact mem_confirmed_iff
  unfold complete
  rw [keys, decide_eq_true_eq, Keyed.keys, ← size, ← Keyed.keys]
  constructor
  · intro full path member
    have whole := Finset.eq_of_subset_of_card_le among full.ge
    apply (each path).mp
    rw [whole]
    exact List.mem_toFinset.mpr member
  · intro all
    have whole : observed.confirmed = (Keyed.ofList expected : Keyed Expectation.path).keys.toFinset := by
      apply Finset.Subset.antisymm among
      intro path member
      exact (each path).mpr (all path (List.mem_toFinset.mp member))
    rw [whole]

end Window

end Observation

/-! ### A window from its first question to its last -/

/-- What a window read until it ended: deliveries without a stop between them, up to the first at which it was
done, or all of them. -/
structure Heard (world : World) (done : List Message → Prop) (deliveries : List (Option (List Message)))
    (clock : ℕ) (parts : List (List Message)) : Prop where
  delivered : deliveries.take parts.length = parts.map some
  unstopped : ∀ asked < parts.length, world.stop (clock + asked) = false
  undone : ∀ count < parts.length, ¬ done (parts.take count).flatten
  ended : done parts.flatten ∨ parts.length = deliveries.length

theorem watch_ends (world : World) (done : Observation → Bool) (cause : Cause)
    (deliveries : List (Option (List Message))) (observed : Observation) (seen : List Message)
    (start : Session) :
    Ends (watch world done (some cause) observed seen deliveries) start
      (fun result stop => ∃ parts,
        Heard world (fun reports => done (observed.absorbAll reports) = true) deliveries start.clock parts
        ∧ result.1 = observed.absorbAll parts.flatten ∧ stop.clock = start.clock + parts.length)
      fun _ _ => True := by
  induction deliveries generalizing observed seen start with
  | nil =>
      refine ⟨[], ⟨rfl, ?_, ?_, Or.inr rfl⟩, rfl, rfl⟩
      · exact fun asked none => absurd none (Nat.not_lt_zero asked)
      · exact fun count none => absurd none (Nat.not_lt_zero count)
  | cons delivery rest ih =>
      unfold watch
      by_cases finished : done observed = true
      · rw [if_pos finished]
        refine ⟨[], ⟨rfl, ?_, ?_, Or.inl finished⟩, rfl, rfl⟩
        · exact fun asked none => absurd none (Nat.not_lt_zero asked)
        · exact fun count none => absurd none (Nat.not_lt_zero count)
      · rw [if_neg finished, ends_bind, ends_askStop]
        by_cases stopped : world.stop start.clock = true
        · rw [if_pos stopped]
          exact trivial
        · rw [if_neg stopped]
          cases delivery with
          | none => exact trivial
          | some reports =>
              refine (ih (observed.absorbAll reports) (seen ++ reports) _).imp ?_ fun _ _ _ => trivial
              rintro result stop ⟨parts, read, closed, clock⟩
              have joined (more : List (List Message)) :
                  observed.absorbAll (reports :: more).flatten
                    = (observed.absorbAll reports).absorbAll more.flatten := by
                rw [List.flatten_cons]
                exact List.foldl_append
              refine ⟨reports :: parts, ⟨?_, ?_, ?_, ?_⟩, ?_, ?_⟩
              · rw [List.length_cons, List.take_succ_cons, read.delivered, List.map_cons]
              · intro asked early
                cases asked with
                | zero => exact Bool.eq_false_iff.mpr stopped
                | succ asked =>
                    have := read.unstopped asked (Nat.lt_of_succ_lt_succ early)
                    rwa [show start.clock + (asked + 1) = start.clock + 1 + asked by omega]
              · intro count early
                cases count with
                | zero => exact finished
                | succ count =>
                    rw [List.take_succ_cons, joined]
                    exact read.undone count (Nat.lt_of_succ_lt_succ early)
              · rw [joined, List.length_cons, List.length_cons, Nat.add_right_cancel_iff]
                exact read.ended
              · rw [joined]
                exact closed
              · rw [clock, List.length_cons]
                show start.clock + 1 + parts.length = _
                omega

/-! ### The barrier -/

namespace Sending

variable (sending : Sending)

/-- A link the barrier waits for: one of an output, or one that must be confirmed. -/
def Awaits (path : Path) : Prop :=
  ∃ write ∈ sending.wanted.links, write.path = path
    ∧ (path.inFamily .output = true ∨ path ∈ sending.requireConfirmation)

/-- What the barrier expects of these links. -/
def awaited : Keyed Expectation.path :=
  Keyed.ofList (linkExpectations sending.echoes)

/-- Every link the barrier waits for was last reported as written. -/
def Settled (reports : List Message) : Prop :=
  ∀ path, sending.Awaits path → ∃ report, lastOf Message.path path reports = some report
    ∧ Observation.Agrees sending.awaited report

/-- How a barrier that was opened at `clock` is crossed. -/
structure Waited (world : World) (clock : ℕ) (parts : List (List Message)) : Prop where
  heard : Heard world sending.Settled (world.deliveries (clock + 1)) (clock + 2) parts
  unstopped : world.stop (clock + 2 + parts.length) = false
  uncontradicted : ∀ path, sending.Awaits path → ∀ report,
    lastOf Message.path path parts.flatten = some report → Observation.Agrees sending.awaited report
  confirmed : sending.requireConfirmation ≠ [] → sending.Settled parts.flatten

/-- The barrier in front of the mix is crossed: no stop is asked, and where it waits for links their window
ends well. -/
structure Crossed (world : World) (clock : ℕ) : Prop where
  unstopped : sending.requireConfirmation ≠ [] ∨ (∃ path, sending.Awaits path) → world.stop clock = false
  waited : (∃ path, sending.Awaits path) → ∃ parts, sending.Waited world clock parts

variable {sending}

theorem awaits_iff {path : Path} : sending.Awaits path ↔ path ∈ sending.awaited.keys := by
  unfold awaited Awaits
  rw [Keyed.mem_keys_ofList]
  constructor
  · rintro ⟨write, member, rfl, waits⟩
    refine ⟨_, List.mem_map_of_mem (List.mem_map_of_mem (List.mem_filter.mpr ⟨member, ?_⟩)), rfl⟩
    simpa using waits
  · rintro ⟨expectation, member, rfl⟩
    obtain ⟨echo, among, rfl⟩ := List.mem_map.mp member
    obtain ⟨write, kept, rfl⟩ := List.mem_map.mp among
    obtain ⟨held, waits⟩ := List.mem_filter.mp kept
    exact ⟨write, held, rfl, by simpa using waits⟩

theorem echoes_eq_nil : sending.echoes = [] ↔ ¬ ∃ path, sending.Awaits path := by
  constructor
  · rintro none ⟨path, waits⟩
    rw [awaits_iff, awaited, Keyed.mem_keys_ofList, none] at waits
    obtain ⟨expectation, member, -⟩ := waits
    cases member
  · intro none
    by_contra some
    obtain ⟨echo, member⟩ := List.exists_mem_of_ne_nil _ some
    apply none
    refine ⟨echo.1, awaits_iff.mpr ((Keyed.mem_keys_ofList _ _).mpr ⟨_, List.mem_map_of_mem member, rfl⟩)⟩

/-- The window is complete once it settled. -/
theorem complete_iff_settled (reports : List Message) :
    ((Observation.opened (linkExpectations sending.echoes) none [] []).absorbAll reports).complete = true
      ↔ sending.Settled reports := by
  rw [Observation.complete_iff]
  constructor
  · exact fun all path waits => all path (awaits_iff.mp waits)
  · exact fun all path member => all path (awaits_iff.mpr member)

/-- What the wait for the links came to, where it did not end in a stop or a contradiction. -/
theorem awaitLinkEcho_ends (world : World) (start : Session) :
    Ends (awaitLinkEcho world sending.echoes) start
      (fun echo _ => echo = .confirmed ∨ echo = .silent →
        world.stop start.clock = false ∧ (sending.echoes = [] ∨ ∃ parts,
          Heard world sending.Settled (world.deliveries (start.clock + 1)) (start.clock + 2) parts
          ∧ world.stop (start.clock + 2 + parts.length) = false
          ∧ (∀ path, sending.Awaits path → ∀ report, lastOf Message.path path parts.flatten = some report →
            Observation.Agrees sending.awaited report)
          ∧ (echo = .confirmed → sending.Settled parts.flatten)))
      fun _ _ => True := by
  unfold awaitLinkEcho
  rw [ends_bind, ends_askStop]
  by_cases stopped : world.stop start.clock = true
  · rw [if_pos stopped]
    rintro (same | same) <;> cases same
  · rw [if_neg stopped]
    have going : world.stop start.clock = false := Bool.eq_false_iff.mpr stopped
    by_cases none : sending.echoes.isEmpty = true
    · rw [if_pos none]
      exact fun _ => ⟨going, Or.inl (List.isEmpty_iff.mp none)⟩
    · rw [if_neg none, ends_bind]
      show Ends _ { start with clock := start.clock + 1 + 1 } _ _
      rw [ends_bind]
      refine (watch_ends world _ _ _ _ _ _).imp ?_ fun _ _ _ => trivial
      rintro ⟨closed, seen⟩ middle ⟨parts, heard, same, clock⟩
      obtain rfl : closed = _ := same
      simp only [complete_iff_settled] at heard
      show Ends _ middle _ _
      rw [ends_bind, ends_askStop, clock]
      by_cases halted : world.stop (start.clock + 1 + 1 + parts.length) = true
      · rw [if_pos halted]
        rintro (same | same) <;> cases same
      · rw [if_neg halted]
        by_cases wrong : ((Observation.opened (linkExpectations sending.echoes) Option.none [] []).absorbAll
            parts.flatten).mismatched.Nonempty
        · rw [if_pos wrong]
          rintro (same | same) <;> cases same
        · rw [if_neg wrong]
          intro _
          refine ⟨going, Or.inr ⟨parts, heard, Bool.eq_false_iff.mpr halted, ?_, ?_⟩⟩
          · intro path waits report last
            by_contra contradicts
            apply wrong
            exact ⟨path, Observation.mem_mismatched_iff.mpr ⟨awaits_iff.mp waits, report, last, contradicts⟩⟩
          · intro same
            apply (complete_iff_settled _).mp
            by_contra undone
            rw [if_neg undone] at same
            cases same

/-- The barrier lets nothing through that it did not wait for. -/
theorem crossTheBarrier_ends (world : World) (start : Session) :
    Ends (crossTheBarrier world sending.echoes sending.requireConfirmation) start
      (fun _ _ => sending.Crossed world start.clock) fun _ _ => True := by
  unfold crossTheBarrier
  rw [ends_bind]
  refine (awaitLinkEcho_ends world start).imp ?_ fun _ _ _ => trivial
  intro echo middle known
  have crossed (passed : echo = .confirmed ∨ echo = .silent)
      (confirmed : sending.requireConfirmation ≠ [] → echo = .confirmed) :
      sending.Crossed world start.clock := by
    obtain ⟨going, none | ⟨parts, heard, unstopped, uncontradicted, settled⟩⟩ := known passed
    · exact ⟨fun _ => going, fun some => absurd some (echoes_eq_nil.mp none)⟩
    · exact ⟨fun _ => going, fun _ => ⟨parts, heard, unstopped, uncontradicted,
        fun required => settled (confirmed required)⟩⟩
  cases echo with
  | cancelled => exact trivial
  | contradicted => exact trivial
  | silent =>
      dsimp only
      rw [ends_ite]
      refine ⟨fun _ => trivial, fun free => ?_⟩
      refine crossed (Or.inr rfl) fun required => absurd ?_ free
      simpa using required
  | confirmed => exact crossed (Or.inl rfl) fun _ => rfl

end Sending

/-! ### What is submitted -/

/-- What an operation submitted so far. -/
def Session.submitted (session : Session) : List Message :=
  OscmixDesk.submitted session.events

theorem Looked.submitted {start stop : Session} (looked : Looked start stop) :
    stop.submitted = start.submitted := by
  obtain ⟨windows, events⟩ := looked.windows
  rw [Session.submitted, events, submitted_append, submitted_windows, List.append_nil]
  rfl

/-- Of a burst a first part was submitted. -/
def SubmittedPart (start : Session) (burst : List Message) (stop : Session) : Prop :=
  ∃ count, stop.submitted = start.submitted ++ burst.take count

theorem SubmittedPart.nothing {start stop : Session} {burst : List Message}
    (same : stop.submitted = start.submitted) : SubmittedPart start burst stop :=
  ⟨0, by rw [same, List.take_zero, List.append_nil]⟩

theorem sendFrom_submitted (world : World) (burst : List Message) (written : List Path) (start : Session) :
    Ends (sendFrom world written burst) start (fun _ stop => stop.submitted = start.submitted ++ burst)
      fun _ stop => SubmittedPart start burst stop := by
  induction burst generalizing written start with
  | nil => exact (List.append_nil _).symm
  | cons message rest ih =>
      unfold sendFrom
      rw [ends_bind]
      refine (exchange_ends world message start).imp (fun answer middle known => ?_)
        fun _ _ never => never.elim
      have added : middle.submitted = start.submitted ++ submitted (answer.events message) := by
        rw [Session.submitted, known.2.1, submitted_append]
        rfl
      cases answer with
      | unsent => exact ⟨0, added⟩
      | lost => exact ⟨1, added⟩
      | refused busy => exact ⟨1, added⟩
      | done =>
          have whole (more : List Message) :
              middle.submitted ++ more = start.submitted ++ message :: more := by
            rw [added, List.append_assoc]
            rfl
          refine (ih (written ++ [message.path]) middle).imp (fun _ stop all => ?_) ?_
          · rw [all, whole]
          · rintro problem stop ⟨count, some⟩
            exact ⟨count + 1, by rw [some, whole, List.take_succ_cons]⟩

theorem send_submitted (world : World) (burst : List Message) (start : Session) :
    Ends (send world burst) start (fun _ stop => stop.submitted = start.submitted ++ burst)
      fun _ stop => SubmittedPart start burst stop := by
  unfold send
  rw [ends_bind]
  show Ends (if start.lease then _ else _) start _ _
  rw [ends_ite]
  exact ⟨fun _ => sendFrom_submitted world burst [] start, fun _ => SubmittedPart.nothing rfl⟩

namespace Sending

variable (world : World) {sending : Sending}

/-- What a phase submits is a first part of its burst, and all of it where the phase ends well. -/
theorem sendPhase_submitted (plans : sending.Plans) (phase : Phase) (burst remaining : List Write)
    (latest : Reports) (guard : Option PlaybackState) (start : Session) :
    Ends (sending.sendPhase world phase burst remaining latest guard) start
      (fun _ stop => stop.submitted = start.submitted ++ burst.map Write.message)
      fun _ stop => SubmittedPart start (burst.map Write.message) stop := by
  unfold sendPhase
  rw [ends_bind]
  refine (looks_before world plans phase burst remaining latest start).imp
    (fun latest middle looked => ?_) fun _ _ failed => SubmittedPart.nothing failed.1.submitted
  by_cases empty : burst.isEmpty = true
  · rw [if_pos empty, List.isEmpty_iff.mp empty]
    show middle.submitted = start.submitted ++ []
    rw [looked.submitted, List.append_nil]
  · rw [if_neg empty, ends_bind]
    refine (@looks_guardCheck false world sending.config guard middle).imp (fun _ later looked' => ?_)
      fun _ _ failed => SubmittedPart.nothing (failed.1.submitted.trans looked.submitted)
    have same : later.submitted = start.submitted := looked'.submitted.trans looked.submitted
    rw [ends_bind]
    refine (send_submitted world _ later).imp (fun _ stop all => ?_) ?_
    · show stop.submitted = _
      rw [all, same]
    · rintro problem stop ⟨count, some⟩
      exact ⟨count, by rw [some, same]⟩

/-! ### The phases in front of the mix -/

/-- One phase after another: a stop, a failure with its account, or the rest behind it. -/
theorem sendPhases_cons (phase : Phase) (rest : List Phase) (written : List Path) (latest : Reports)
    (guard : Option PlaybackState) (start : Session) (left : sending.inOrder (phase :: rest) ≠ []) :
    sending.sendPhases world written latest guard (phase :: rest) start =
      if world.stop start.clock then
        (.error (.writeFailed (.stopped .phase) written (writePaths (sending.inOrder (phase :: rest)))),
          { start with clock := start.clock + 1 })
      else
        match sending.sendPhase world phase (sending.wanted.burst phase)
            (sending.inOrder (phase :: rest)) latest guard { start with clock := start.clock + 1 } with
        | (.ok (latest, guard), middle) =>
            sending.sendPhases world (written ++ writePaths (sending.wanted.burst phase)) latest guard rest middle
        | (.error problem, stop) =>
            (.error (accountFor written (writePaths (sending.wanted.burst phase))
              (writePaths (sending.inOrder rest)) problem), stop) := by
  have some : ¬((sending.wanted.burst phase).isEmpty
      && (writePaths (rest.flatMap sending.wanted.burst)).isEmpty) = true := by
    intro none
    simp only [writePaths, Bool.and_eq_true, List.isEmpty_iff, List.map_eq_nil_iff] at none
    apply left
    show sending.wanted.burst phase ++ rest.flatMap sending.wanted.burst = []
    rw [none.1, none.2]
    rfl
  have paths : writePaths (sending.inOrder (phase :: rest))
      = writePaths (sending.wanted.burst phase) ++ writePaths (sending.inOrder rest) :=
    List.map_append
  rw [sendPhases, if_neg some, run_bind (show askStop world start = _ from rfl), paths]
  by_cases stopped : world.stop start.clock = true
  · rw [if_pos stopped, if_pos stopped]
    rfl
  · rw [if_neg stopped, if_neg stopped]
    show Prog.andThen (Prog.recover (sending.sendPhase world phase (sending.wanted.burst phase)
      (sending.inOrder (phase :: rest)) latest guard) _) _ _ = _
    unfold Prog.andThen Prog.recover
    rcases sending.sendPhase world phase _ _ latest guard _ with ⟨problem | ⟨latest, guard⟩, middle⟩
    · rfl
    · rfl

theorem sendPhases_submitted (plans : sending.Plans) (phases : List Phase) (written : List Path)
    (latest : Reports) (guard : Option PlaybackState) (start : Session) :
    ∃ count, (sending.sendPhases world written latest guard phases start).2.submitted
      = start.submitted ++ ((sending.inOrder phases).take count).map Write.message := by
  induction phases generalizing written latest guard start with
  | nil => exact ⟨0, (List.append_nil _).symm⟩
  | cons phase rest ih =>
      have whole : sending.inOrder (phase :: rest) = sending.wanted.burst phase ++ sending.inOrder rest := rfl
      by_cases left : sending.inOrder (phase :: rest) = []
      · refine ⟨0, ?_⟩
        rw [List.take_zero, List.map_nil, List.append_nil]
        rw [whole, List.append_eq_nil_iff] at left
        unfold sendPhases
        rw [left.1, show rest.flatMap sending.wanted.burst = [] from left.2]
        rfl
      · rw [sendPhases_cons world phase rest written latest guard start left]
        split_ifs with stopped
        · exact ⟨0, (List.append_nil _).symm⟩
        · have ends := sendPhase_submitted world plans phase (sending.wanted.burst phase)
            (sending.inOrder (phase :: rest)) latest guard { start with clock := start.clock + 1 }
          rcases ran : sending.sendPhase world phase _ _ latest guard _
            with ⟨problem | ⟨latest, guard⟩, middle⟩
          · obtain ⟨count, some⟩ := ends.raised ran
            refine ⟨min count (sending.wanted.burst phase).length, ?_⟩
            rw [whole, take_min_append, List.map_take]
            exact some
          · have all := ends.returned ran
            obtain ⟨count, more⟩ := ih (written ++ writePaths (sending.wanted.burst phase)) latest guard middle
            refine ⟨(sending.wanted.burst phase).length + count, ?_⟩
            show (sending.sendPhases world _ latest guard rest middle).2.submitted = _
            rw [more, all, whole, List.take_length_add_append, List.map_append, List.append_assoc]
            rfl

/-- A plan that ends in its first phases: with everything behind them pending, and nothing of it submitted. -/
structure Refused (start : Session) (written : List Path) (front back : List Write)
    (run : Except Raised Unit × Session) : Prop where
  account : ∃ cause count, run.1 = .error (.writeFailed cause (written ++ writePaths (front.take count))
    (writePaths (front.drop count ++ back)))
  submitted : ∃ count, run.2.submitted = start.submitted ++ (front.take count).map Write.message

/-- A plan comes to a phase with all before it out, or ends before. -/
theorem comesTo (plans : sending.Plans) (front back : List Phase) (left : sending.inOrder back ≠ [])
    (written : List Path) (latest : Reports) (guard : Option PlaybackState) (start : Session) :
    (∃ middle reports guarded,
      middle.submitted = start.submitted ++ (sending.inOrder front).map Write.message
      ∧ sending.sendPhases world written latest guard (front ++ back) start
        = sending.sendPhases world (written ++ writePaths (sending.inOrder front)) reports guarded back middle)
    ∨ Refused start written (sending.inOrder front) (sending.inOrder back)
      (sending.sendPhases world written latest guard (front ++ back) start) := by
  induction front generalizing written latest guard start with
  | nil => exact Or.inl ⟨start, latest, guard, (List.append_nil _).symm, by
      rw [show writePaths (sending.inOrder []) = [] from rfl, List.append_nil, List.nil_append]⟩
  | cons phase front ih =>
      have whole : sending.inOrder (phase :: front) = sending.wanted.burst phase ++ sending.inOrder front := rfl
      have joined : sending.inOrder (front ++ back) = sending.inOrder front ++ sending.inOrder back :=
        List.flatMap_append
      have split : sending.inOrder (phase :: (front ++ back))
          = sending.inOrder (phase :: front) ++ sending.inOrder back := by
        rw [whole, List.append_assoc, ← joined]
        rfl
      have some : sending.inOrder (phase :: (front ++ back)) ≠ [] := by
        rw [split]
        exact List.append_ne_nil_of_right_ne_nil _ left
      rw [List.cons_append, sendPhases_cons world phase (front ++ back) written latest guard start some]
      split_ifs with stopped
      · refine Or.inr ⟨⟨.stopped .phase, 0, ?_⟩, 0, (List.append_nil _).symm⟩
        rw [List.take_zero, List.drop_zero, split, show writePaths [] = [] from rfl, List.append_nil]
      · have ends := (sendPhase_ends world plans phase (sending.wanted.burst phase)
          (sending.inOrder (phase :: (front ++ back))) latest guard
          { start with clock := start.clock + 1 }).and (sendPhase_submitted world plans phase _ _ latest guard _)
        rcases ran : sending.sendPhase world phase _ _ latest guard _ with ⟨problem | ⟨latest, guard⟩, middle⟩
        · obtain ⟨failed, count, part⟩ := ends.raised ran
          obtain ⟨cause, done, account, -⟩ := phaseFailed_account failed written
            (writePaths (sending.inOrder (front ++ back)))
          refine Or.inr ⟨⟨cause, min done (sending.wanted.burst phase).length, ?_⟩,
            min count (sending.wanted.burst phase).length, ?_⟩
          · dsimp only
            rw [account, whole, take_min_append, drop_min_append, joined]
            simp [writePaths]
          · rw [whole, take_min_append, List.map_take]
            exact part
        · have all := (ends.returned ran).2
          have before (more : List Write) : middle.submitted ++ more.map Write.message
              = start.submitted ++ (sending.wanted.burst phase ++ more).map Write.message := by
            rw [all, List.map_append, List.append_assoc]
            rfl
          dsimp only
          rcases ih (written ++ writePaths (sending.wanted.burst phase)) latest guard middle with
            ⟨later, reports, guarded, submitted, rest⟩ | ⟨⟨cause, done, account⟩, count, submitted⟩
          · refine Or.inl ⟨later, reports, guarded, ?_, ?_⟩
            · rw [submitted, before, whole]
            · rw [rest, whole, writePaths, writePaths, writePaths, List.map_append, List.append_assoc]
          · refine Or.inr ⟨⟨cause, (sending.wanted.burst phase).length + done, ?_⟩,
              (sending.wanted.burst phase).length + count, ?_⟩
            · rw [account, whole, List.take_length_add_append, List.drop_length_add_append]
              simp [writePaths]
            · rw [submitted, before, whole, List.take_length_add_append]

/-- The mix phase fails with nothing submitted, or behind a barrier that was crossed. -/
theorem sendMix_ends (burst remaining : List Write) (some : burst ≠ [])
    (latest : Reports) (guard : Option PlaybackState) (start : Session) :
    Ends (sending.sendPhase world .mix burst remaining latest guard) start
      (fun _ _ => sending.Crossed world start.clock)
      fun problem stop => sending.Crossed world start.clock
        ∨ stop.submitted = start.submitted ∧ ∃ cause, problem = .os cause := by
  have full : ¬ burst.isEmpty = true := fun none => some (List.isEmpty_iff.mp none)
  have anyway {α : Type} (prog : Act α) (state : Session) (crossed : sending.Crossed world start.clock) :
      Ends prog state (fun _ _ => sending.Crossed world start.clock)
        fun problem stop => sending.Crossed world start.clock
          ∨ stop.submitted = start.submitted ∧ ∃ cause, problem = .os cause :=
    ends_iff.mpr ⟨fun _ _ _ => crossed, fun _ _ _ => Or.inl crossed⟩
  unfold sendPhase before beforeMix
  rw [if_neg full, ends_bind]
  dsimp only
  by_cases waits : (!sending.echoes.isEmpty || !sending.requireConfirmation.isEmpty) = true
  · rw [if_pos waits, ends_bind]
    refine ((crossTheBarrier_ends world start).and (@looks_crossTheBarrier false world _ _ start)).imp
      (fun _ middle known => ?_) fun _ _ failed => Or.inr ⟨failed.2.1.submitted, failed.2.2.os⟩
    refine (anyway _ middle known.1).imp (fun _ later crossed => ?_) fun _ _ failed => failed
    exact anyway _ later crossed
  · rw [if_neg waits]
    simp only [Bool.or_eq_true, Bool.not_eq_true', List.isEmpty_eq_false_iff, not_or, not_not] at waits
    have none := echoes_eq_nil.mp waits.1
    have crossed : sending.Crossed world start.clock :=
      ⟨fun wanted => absurd wanted (not_or.mpr ⟨not_not.mpr waits.2, none⟩), fun wanted => absurd wanted none⟩
    refine (anyway _ start crossed).imp (fun _ later crossed => ?_) fun _ _ failed => failed
    exact anyway _ later crossed

/-- The phases in front of the mix. -/
def frontPhases : List Phase :=
  [.playbackMuteOn, .autosetOff, .link]

/-- The mix and what follows it. -/
def backPhases : List Phase :=
  [.mix, .channel, .autosetOn, .playbackMuteOff]

/-- A run comes to the mix: the writes before it are out, and the phases from it are what is left. -/
structure AtMix (world : World) (sending : Sending) (latest : Reports) (start middle : Session) : Prop where
  submitted : middle.submitted = start.submitted ++ (sending.inOrder frontPhases).map Write.message
  rest : ∃ reports guard, sendInOrder world sending latest start
    = sending.sendPhases world (writePaths (sending.inOrder frontPhases)) reports guard backPhases middle

/-- **The mix waits for its links.** A run of a plan with a mix submits a first part of its writes. Either it came
to the mix and crossed the barrier there: no stop was asked, and the window on the links ended without a stop or a
lost connection, with no last report against a link the barrier waits for, and with all of them confirmed where
confirmation is required. Or it submitted nothing of the mix and of what follows, and its error has all of
them pending. -/
theorem mixWaits (plans : sending.Plans) (mix : sending.wanted.burst .mix ≠ []) (latest : Reports)
    (start : Session) :
    let front := sending.inOrder frontPhases
    let back := sending.inOrder backPhases
    let run := sendInOrder world sending latest start
    (∃ count, run.2.submitted = start.submitted ++ ((front ++ back).take count).map Write.message)
      ∧ ((∃ middle, AtMix world sending latest start middle ∧ world.stop middle.clock = false
          ∧ sending.Crossed world (middle.clock + 1))
        ∨ Refused start [] front back run) := by
  intro front back run
  have some : sending.inOrder backPhases ≠ [] := by
    show sending.wanted.burst .mix ++ _ ≠ []
    exact List.append_ne_nil_of_left_ne_nil mix _
  have whole : sending.inOrder Phase.order = front ++ back := by
    show sending.inOrder (frontPhases ++ backPhases) = _
    exact List.flatMap_append
  have pending : writePaths back = writePaths (sending.wanted.burst .mix)
      ++ writePaths (sending.inOrder [.channel, .autosetOn, .playbackMuteOff]) := List.map_append
  refine ⟨whole ▸ sendPhases_submitted world plans Phase.order [] latest none start, ?_⟩
  rcases comesTo world plans frontPhases backPhases some [] latest none start with
    ⟨middle, reports, guard, submitted, rest⟩ | refused
  · have arrived : AtMix world sending latest start middle := ⟨submitted, reports, guard, rest⟩
    have same : run = sending.sendPhases world (writePaths front) reports guard backPhases middle := rest
    rw [backPhases, sendPhases_cons world .mix _ _ reports guard middle some] at same
    have nothing (stop : Session) (kept : stop.submitted = middle.submitted) :
        ∃ count, stop.submitted = start.submitted ++ (front.take count).map Write.message :=
      ⟨front.length, by rw [kept, submitted, List.take_length]⟩
    by_cases stopped : world.stop middle.clock = true
    · rw [if_pos stopped] at same
      refine Or.inr ⟨⟨.stopped .phase, front.length, ?_⟩, ?_⟩
      · rw [same, List.take_length, List.drop_length]
        rfl
      · rw [same]
        exact nothing _ rfl
    · rw [if_neg stopped] at same
      have going : world.stop middle.clock = false := Bool.eq_false_iff.mpr stopped
      have ends := @sendMix_ends world sending (sending.wanted.burst .mix) (sending.inOrder backPhases) mix
        reports guard { middle with clock := middle.clock + 1 }
      rcases ran : sending.sendPhase world .mix (sending.wanted.burst .mix) (sending.inOrder backPhases) reports
        guard { middle with clock := middle.clock + 1 } with ⟨problem | value, stop⟩
      · rcases ends.raised ran with crossed | ⟨kept, cause, rfl⟩
        · exact Or.inl ⟨middle, arrived, going, crossed⟩
        · rw [backPhases] at ran
          rw [ran] at same
          refine Or.inr ⟨⟨cause, front.length, ?_⟩, ?_⟩
          · rw [same, List.take_length, List.drop_length]
            show Except.error (accountFor _ _ _ (.os cause)) = _
            unfold accountFor
            rw [List.nil_append, List.nil_append, pending]
          · rw [same]
            exact nothing stop kept
      · exact Or.inl ⟨middle, arrived, going, ends.returned ran⟩
  · exact Or.inr refused

/-- One pair of outputs to link, and one crosspoint on it. -/
def onePair : Sending where
  config := {}
  wanted :=
    { writes := [⟨.link .output 1, "i", [.int 1], .link, .missing⟩,
        ⟨.mix 1 .input 1, "f", [.float (.finite 0)], .mix, .missing⟩]
      confirmed := []
      unverifiable := [] }
  requireConfirmation := [.link .output 1]
  intent := .repair
  retained := []
  confirmed := []

/-- A desk that reports the old state of the link first. -/
def late : World where
  stop := fun _ => false
  exchange := fun _ => .done
  grant := fun _ => .granted
  deliveries := fun _ => [some [⟨.link .output 1, "i", [.int 0]⟩], some [⟨.link .output 1, "i", [.int 1]⟩]]
  playback := fun _ => none

/-- The mix goes out behind the second report. -/
theorem mixWaits_onePair : ∃ middle, AtMix late onePair noReports {} middle ∧ late.stop middle.clock = false
    ∧ onePair.Crossed late (middle.clock + 1) := by
  have sent : (sendInOrder late onePair noReports {}).2.submitted = onePair.wanted.writes.map Write.message := by
    decide +kernel
  rcases (@mixWaits late onePair ⟨_, rfl⟩ (by decide) noReports {}).2 with crossed | ⟨-, count, submitted⟩
  · exact crossed
  · -- one write stands in front of the mix, and two went out
    rw [sent] at submitted
    have size := congrArg List.length submitted
    have two : onePair.wanted.writes.length = 2 := rfl
    have short : (@inOrder onePair frontPhases).length = 1 := by decide
    rw [List.length_map, List.length_append, List.length_map, List.length_take, two, short] at size
    have none : (Session.submitted {}).length = 0 := rfl
    omega

end Sending

end OscmixDesk
