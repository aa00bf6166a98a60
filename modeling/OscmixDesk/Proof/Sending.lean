/-
**How bursts, phases and plans end.**

A burst that fails names the paths that went out and those that did not, in order (`send_ends`); the
windows and checks between the bursts write nothing (`Looks`). So a plan that is sent phase by phase
goes out in full, or fails with the account of how far it came (`sendInOrder_ends`): the phases behind
are done, and the account of the failing burst is put between them and the phases ahead.
-/

import OscmixDesk.Model.Profiles

namespace OscmixDesk

open Effects

/-! ### What went out -/

/-- The messages of the writes that were acknowledged or whose acknowledgement was lost. -/
def wentOut (events : List Event) : List Message :=
  events.filterMap fun event =>
    match event with
    | .write _ .refused => none
    | .write message _ => some message
    | .window _ => none

/-- What an operation sent so far. -/
def Session.sent (session : Session) : List Message :=
  wentOut session.events

/-- The paths of messages. -/
def messagePaths (messages : List Message) : List Path :=
  messages.map (·.path)

@[simp] theorem wentOut_append (first second : List Event) :
    wentOut (first ++ second) = wentOut first ++ wentOut second :=
  List.filterMap_append

@[simp] theorem wentOut_windows (windows : List (List Message)) :
    wentOut (windows.map Event.window) = [] := by
  unfold wentOut
  induction windows with
  | nil => rfl
  | cons window rest ih => exact ih

/-- The messages of the submitted writes, refused or not. -/
def submitted (events : List Event) : List Message :=
  events.filterMap fun event =>
    match event with
    | .write message _ => some message
    | .window _ => none

@[simp] theorem submitted_append (first second : List Event) :
    submitted (first ++ second) = submitted first ++ submitted second :=
  List.filterMap_append

@[simp] theorem submitted_windows (windows : List (List Message)) :
    submitted (windows.map Event.window) = [] := by
  unfold submitted
  induction windows with
  | nil => rfl
  | cons window rest ih => exact ih

@[simp] theorem messagePaths_append (first second : List Message) :
    messagePaths (first ++ second) = messagePaths first ++ messagePaths second :=
  List.map_append

/-- Whether a request reached the backend without being refused. -/
def Exchange.out : Exchange → Bool
  | .lost => true
  | .done => true
  | _ => false

/-- What one request adds to what was done. -/
def Exchange.events (message : Message) : Exchange → List Event
  | .unsent => []
  | .lost => [.write message .lost]
  | .refused _ => [.write message .refused]
  | .done => [.write message .done]

/-- Whether a request leaves the connection usable. -/
def Exchange.usable : Exchange → Bool
  | .unsent => false
  | .lost => false
  | _ => true

theorem wentOut_events (message : Message) (answer : Exchange) :
    wentOut (answer.events message) = if answer.out then [message] else [] := by
  cases answer <;> rfl

/-- One request: what it adds, and that only a failing connection ends the lease. -/
theorem exchange_ends (world : World) (message : Message) (start : Session) :
    Ends (exchange world message) start
      (fun answer stop => answer = world.exchange start.clock
        ∧ stop.events = start.events ++ answer.events message
        ∧ stop.lease = (start.lease && answer.usable))
      fun _ _ => False := by
  unfold exchange
  rw [ends_bind]
  show Ends _ { start with clock := start.clock + 1 } _ _
  generalize world.exchange start.clock = answer
  cases answer with
  | unsent => exact ⟨rfl, by simp [Exchange.events], by simp [Exchange.usable]⟩
  | lost => exact ⟨rfl, rfl, by simp [Exchange.usable]⟩
  | refused busy => exact ⟨rfl, rfl, by simp [Exchange.usable]⟩
  | done => exact ⟨rfl, rfl, by simp [Exchange.usable]⟩

/-! ### Bursts -/

/-- How a burst fails, behind paths that went out before: its first writes went out, and the account
says which. -/
def BurstFailed (start : Session) (written : List Path) (burst : List Message) (problem : Raised)
    (stop : Session) : Prop :=
  ∃ cause count, problem = .writeFailed cause (written ++ messagePaths (burst.take count))
      (messagePaths (burst.drop count))
    ∧ stop.sent = start.sent ++ burst.take count

theorem sendFrom_ends (world : World) (burst : List Message) (written : List Path)
    (start : Session) :
    Ends (sendFrom world written burst) start (fun _ stop => stop.sent = start.sent ++ burst)
      (BurstFailed start written burst) := by
  induction burst generalizing written start with
  | nil => exact (List.append_nil _).symm
  | cons message rest ih =>
      unfold sendFrom
      rw [ends_bind]
      refine (exchange_ends world message start).imp (fun answer middle known => ?_)
        fun _ _ never => never.elim
      have sent : middle.sent = start.sent ++ if answer.out then [message] else [] := by
        rw [← wentOut_events, Session.sent, known.2.1, wentOut_append]
        rfl
      cases answer with
      | unsent => exact ⟨.connection, 0, by simp [messagePaths], by simpa [Exchange.out] using sent⟩
      | lost => exact ⟨.connection, 1, by simp [messagePaths], by simpa [Exchange.out] using sent⟩
      | refused busy => exact ⟨.refused message.path busy, 0, by simp [messagePaths],
          by simpa [Exchange.out] using sent⟩
      | done =>
          have gone : middle.sent = start.sent ++ [message] := sent
          refine (ih (written ++ [message.path]) middle).imp (fun _ stop all => ?_)
            fun problem stop failed => ?_
          · rw [all, gone, List.append_assoc]
            rfl
          · obtain ⟨cause, count, account, sent'⟩ := failed
            refine ⟨cause, count + 1, ?_, ?_⟩
            · rw [account, List.append_assoc]
              rfl
            · rw [sent', gone, List.append_assoc]
              rfl

/-- A burst goes out in full, or fails with the account of how far it came. -/
theorem send_ends (world : World) (burst : List Message) (start : Session) :
    Ends (send world burst) start (fun _ stop => stop.sent = start.sent ++ burst)
      (BurstFailed start [] burst) := by
  unfold send
  rw [ends_bind]
  show Ends (if start.lease then _ else _) start _ _
  by_cases lease : start.lease = true
  · rw [if_pos lease]
    exact sendFrom_ends world burst [] start
  · rw [if_neg lease]
    exact ⟨.noLease, 0, by simp [messagePaths], by simp⟩

/-! ### Looking -/

/-- Only windows were added, and no lease was gained. -/
structure Looked (start stop : Session) : Prop where
  windows : ∃ windows : List (List Message), stop.events = start.events ++ windows.map .window
  held : stop.lease = true → start.lease = true

theorem Looked.refl (session : Session) : Looked session session :=
  ⟨⟨[], (List.append_nil _).symm⟩, fun held => held⟩

theorem Looked.trans {first second third : Session} (one : Looked first second)
    (two : Looked second third) : Looked first third := by
  obtain ⟨windows, events⟩ := one.windows
  obtain ⟨windows', events'⟩ := two.windows
  refine ⟨⟨windows ++ windows', ?_⟩, fun held => one.held (two.held held)⟩
  rw [events', events, List.append_assoc, List.map_append]

theorem Looked.sent {start stop : Session} (looked : Looked start stop) :
    stop.sent = start.sent := by
  obtain ⟨windows, events⟩ := looked.windows
  rw [Session.sent, events, wentOut_append, wentOut_windows, List.append_nil]
  rfl

/-- Whether an error is no failed burst, and no fault of the planner unless there may be `faults`. -/
def Raised.Plain (faults : Bool) : Raised → Prop
  | .os _ => True
  | .fault _ => faults = true
  | .writeFailed _ _ _ => False

/-- A program that writes nothing and raises no account. -/
def Looks {α : Type} (faults : Bool) (prog : Act α) : Prop :=
  ∀ start, Ends prog start (fun _ stop => Looked start stop)
    fun problem stop => Looked start stop ∧ problem.Plain faults

/-- Where no faults are expected, a plain error is an `OSError`. -/
theorem Raised.Plain.os {problem : Raised} (plain : problem.Plain false) :
    ∃ cause, problem = .os cause := by
  cases problem with
  | os cause => exact ⟨cause, rfl⟩
  | writeFailed cause written unwritten => exact plain.elim
  | fault fault => cases plain

/-- No faults are few faults. -/
theorem Looks.weaken {α : Type} {prog : Act α} (looks : Looks false prog) : Looks true prog :=
  fun start => (looks start).imp (fun _ _ looked => looked) fun problem _ failed => by
    obtain ⟨cause, rfl⟩ := failed.2.os
    exact ⟨failed.1, trivial⟩

section Looks

variable {faults : Bool}

namespace Looks

variable {α β : Type}

theorem ret (value : α) : Looks faults (pure value : Act α) := fun start => Looked.refl start

theorem raise (cause : Cause) : Looks faults (throw (.os cause) : Act α) := fun start =>
  ⟨Looked.refl start, trivial⟩

theorem ask (change : Session → α × Session)
    (kept : ∀ session, (change session).2.events = session.events)
    (held : ∀ session, (change session).2.lease = true → session.lease = true) :
    Looks faults (Prog.update change : Act α) := fun start =>
  ⟨⟨[], (kept start).trans (List.append_nil _).symm⟩, held start⟩

theorem bind {first : Act β} {next : β → Act α} (looks : Looks faults first)
    (then' : ∀ value, Looks faults (next value)) : Looks faults (first >>= next) := by
  intro start
  rw [ends_bind]
  refine (looks start).imp (fun value middle looked => ?_) fun _ _ failed => failed
  exact (then' value middle).imp (fun _ _ more => looked.trans more)
    fun _ _ failed => ⟨looked.trans failed.1, failed.2⟩

theorem ite {holds : Prop} [Decidable holds] {yes no : Act α} (ifSo : Looks faults yes)
    (otherwise : Looks faults no) : Looks faults (if holds then yes else no) := by
  by_cases known : holds
  · rw [if_pos known]
    exact ifSo
  · rw [if_neg known]
    exact otherwise

/-- A step of the planner, which faults only where faults may be. -/
theorem planned {result : Except Fault α} (known : faults = true ∨ ∃ value, result = .ok value) :
    Looks faults (planned result) := by
  intro start
  unfold OscmixDesk.planned
  rw [ends_lift]
  refine ⟨fun value _ => Looked.refl start, fun problem same => ⟨Looked.refl start, ?_⟩⟩
  cases result with
  | ok value => cases same
  | error fault =>
      cases same
      exact known.resolve_right fun value => by simp at value

end Looks

theorem looks_tick : Looks faults tick := Looks.ask _ (fun _ => rfl) fun _ held => held

@[simp] theorem ends_askStop {world : World} {start : Session} {ok : Bool → Session → Prop}
    {failed : Raised → Session → Prop} : Ends (askStop world) start ok failed
      ↔ ok (world.stop start.clock) { start with clock := start.clock + 1 } := Iff.rfl

theorem looks_askStop (world : World) : Looks faults (askStop world) :=
  looks_tick.bind fun _ => Looks.ret _

theorem looks_close : Looks faults close :=
  Looks.ask _ (fun _ => rfl) fun _ held => (Bool.false_ne_true held).elim

theorem looks_disconnect {α : Type} : Looks faults (do close; throw (.os .connection) : Act α) :=
  looks_close.bind fun _ => Looks.raise _

theorem looks_refuseStop (world : World) (point : StopPoint) : Looks faults (refuseStop world point) :=
  (looks_askStop world).bind fun _ => Looks.ite (Looks.raise _) (Looks.ret _)

theorem looks_requestDump (world : World) : Looks faults (requestDump world) := by
  refine looks_tick.bind fun clock => ?_
  cases world.grant clock with
  | granted => exact Looks.ret _
  | unavailable => exact Looks.raise _
  | disconnected => exact looks_disconnect

theorem looks_watch (world : World) (done : Observation → Bool) (onStop : Option Cause)
    (deliveries : List (Option (List Message))) (observed : Observation) (seen : List Message) :
    Looks faults (watch world done onStop observed seen deliveries) := by
  induction deliveries generalizing observed seen with
  | nil => exact Looks.ret _
  | cons delivery rest ih =>
      unfold watch
      refine Looks.ite (Looks.ret _) ((looks_askStop world).bind fun _ => Looks.ite ?_ ?_)
      · cases onStop with
        | none => exact Looks.ret _
        | some cause => exact Looks.raise _
      · cases delivery with
        | none => exact looks_disconnect
        | some reports => exact ih _ _

theorem looks_record (reports : List Message) : Looks faults (record (.window reports)) := fun _ =>
  ⟨⟨[reports], rfl⟩, fun held => held⟩

theorem looks_readDependencies (world : World) (paths : List Path) (links : List (Path × ℤ))
    (purpose : Purpose) (settled : Option (Observation → Bool)) :
    Looks faults (readDependencies world paths links purpose settled) := by
  unfold readDependencies
  refine Looks.ite (Looks.ret _) ?_
  refine (looks_refuseStop world _).bind fun _ => ?_
  refine (looks_requestDump world).bind fun _ => ?_
  refine looks_tick.bind fun _ => ?_
  refine (looks_watch world _ _ _ _ _).bind fun _ => ?_
  refine (looks_refuseStop world _).bind fun _ => ?_
  exact (looks_record _).bind fun _ => Looks.ret _

theorem looks_readAutoset (world : World) (config : Config) (links : List (Path × ℤ)) :
    Looks faults (readAutoset world config links) :=
  looks_readDependencies world _ _ _ _

theorem looks_readAll (world : World) (purpose : Purpose) (paths : List Path) :
    Looks faults (readAll world purpose paths) :=
  looks_readDependencies world _ _ _ _

theorem looks_guardCheck (world : World) (config : Config) (before : Option PlaybackState) :
    Looks faults (guardCheck world config before) := by
  unfold guardCheck
  refine Looks.ite (Looks.ret _) (looks_tick.bind fun clock => ?_)
  cases world.playback clock with
  | none => exact Looks.raise _
  | some state =>
      refine Looks.ite (Looks.raise _) ?_
      cases state.mode.bind (playbackProblem config) with
      | none => exact Looks.ret _
      | some problem => exact Looks.raise _

/-- Where the entries can be made, so can every check on them. -/
theorem gainProblem_ok {config : Config} {entries : List Entry} (plans : desired config = .ok entries)
    (selected : List Write) (latest : Reports) (intent : ApplyIntent)
    (retained confirmed : List Path) :
    ∃ problem, gainProblem config selected latest intent retained confirmed = .ok problem := by
  have retention (keep : List Path) : ∃ problem,
      retentionProblem config selected keep confirmed (some latest) = .ok problem := by
    unfold retentionProblem
    rw [plans]
    dsimp only
    by_cases blocked : (!((selected.map (·.path)).filter
        (protectedEntries config keep confirmed).contains).isEmpty) = true
    · rw [if_pos blocked]
      exact ⟨_, rfl⟩
    · rw [if_neg blocked]
      simp only [bind, Except.bind, pure, Except.pure]
      generalize List.findSome? _ config.routes = found
      cases found with
      | some problem => exact ⟨_, rfl⟩
      | none => exact ⟨_, rfl⟩
  unfold gainProblem
  dsimp only
  split_ifs
  · exact ⟨_, rfl⟩
  · exact ⟨_, rfl⟩
  · obtain ⟨problem, known⟩ := retention (retained ++ retainedGains config latest
      (switchedLinks selected) intent.preservesRemember)
    rw [known]
    exact ⟨_, rfl⟩

theorem looks_requireGainOwnership {config : Config} {selected : List Write} {latest : Reports}
    {intent : ApplyIntent} {retained confirmed : List Path} (known : faults = true
      ∨ ∃ problem, gainProblem config selected latest intent retained confirmed = .ok problem) :
    Looks faults (requireGainOwnership config selected latest intent retained confirmed) := by
  refine (Looks.planned known).bind fun problem => ?_
  cases problem with
  | none => exact Looks.ret _
  | some problem => exact Looks.raise _

theorem looks_awaitLinkEcho (world : World) (expected : List (Path × ℤ)) :
    Looks faults (awaitLinkEcho world expected) := by
  refine (looks_askStop world).bind fun _ => Looks.ite (Looks.ret _) (Looks.ite (Looks.ret _) ?_)
  refine looks_tick.bind fun _ => (looks_watch world _ _ _ _ _).bind fun _ => ?_
  refine (looks_askStop world).bind fun _ => Looks.ite (Looks.ret _) ?_
  exact Looks.ite (Looks.ret _) (Looks.ret _)

theorem looks_crossTheBarrier (world : World) (expected : List (Path × ℤ))
    (requireConfirmation : List Path) :
    Looks faults (crossTheBarrier world expected requireConfirmation) := by
  refine (looks_awaitLinkEcho world expected).bind fun echo => ?_
  cases echo with
  | cancelled => exact Looks.raise _
  | contradicted => exact Looks.raise _
  | silent => exact Looks.ite (Looks.raise _) (Looks.ret _)
  | confirmed => exact Looks.ret _

end Looks

namespace Sending

/-- Whether the entries of the configuration can be made. -/
def Plans (sending : Sending) : Prop :=
  ∃ entries, desired sending.config = .ok entries

variable (world : World) {sending : Sending}

theorem looks_require (plans : sending.Plans) (writes : List Write) (latest : Reports) :
    Looks false (sending.require writes latest) := by
  obtain ⟨entries, plans⟩ := plans
  exact looks_requireGainOwnership (Or.inr (gainProblem_ok plans _ _ _ _ _))

/-- A check of writes that hands on the reports it ran on. -/
theorem looks_checked (plans : sending.Plans) (writes : List Write) (latest : Reports) :
    Looks false (do sending.require writes latest; return latest) :=
  (looks_require plans writes latest).bind fun _ => Looks.ret _

theorem looks_beforeLinks (plans : sending.Plans) (remaining : List Write) (latest : Reports) :
    Looks false (sending.beforeLinks world remaining latest) := by
  unfold beforeLinks
  exact Looks.ite (Looks.ret _) ((looks_readAutoset world _ _).bind fun latest =>
    looks_checked plans remaining latest)

theorem looks_beforeMix (plans : sending.Plans) (burst : List Write) (latest : Reports) :
    Looks false (sending.beforeMix world burst latest) := by
  have fresh (needed : List (Path × ℤ)) : Looks false (
      if !needed.isEmpty && !sending.wanted.links.isEmpty then do
        let latest ← readAutoset world sending.config needed
        sending.require burst latest
        return latest
      else do
        let latest ← pure latest
        sending.require burst latest
        return latest) :=
    Looks.ite ((looks_readAutoset world _ _).bind fun latest => looks_checked plans burst latest)
      ((Looks.ret _).bind fun latest => looks_checked plans burst latest)
  unfold beforeMix
  refine Looks.ite (Looks.ret _) (Looks.ite ?_ (fresh _))
  exact (looks_crossTheBarrier world _ _).bind fun _ => fresh _

theorem looks_beforeChannel (plans : sending.Plans) (burst : List Write) (latest : Reports) :
    Looks false (sending.beforeChannel world burst latest) := by
  unfold beforeChannel
  refine Looks.ite (Looks.ret _) (Looks.ite ?_ ?_)
  · exact (looks_readAutoset world _ _).bind fun latest => looks_checked plans burst latest
  · exact (Looks.ret _).bind fun latest => looks_checked plans burst latest

theorem looks_before (plans : sending.Plans) (phase : Phase) (burst remaining : List Write) (latest : Reports) :
    Looks false (sending.before world phase burst remaining latest) := by
  cases phase with
  | link => exact looks_beforeLinks world plans remaining latest
  | mix => exact looks_beforeMix world plans burst latest
  | channel => exact looks_beforeChannel world plans burst latest
  | playbackMuteOn => exact Looks.ret _
  | autosetOff => exact Looks.ret _
  | autosetOn => exact Looks.ret _
  | playbackMuteOff => exact Looks.ret _

/-! ### Phases -/

/-- How a phase fails: before its burst, or in it. -/
def PhaseFailed (start : Session) (burst : List Write) (problem : Raised) (stop : Session) : Prop :=
  (stop.sent = start.sent ∧ ∃ cause, problem = .os cause)
    ∨ BurstFailed start [] (burst.map Write.message) problem stop

theorem sendPhase_ends (plans : sending.Plans) (phase : Phase) (burst remaining : List Write) (latest : Reports)
    (guard : Option PlaybackState) (start : Session) :
    Ends (sending.sendPhase world phase burst remaining latest guard) start
      (fun _ stop => stop.sent = start.sent ++ burst.map Write.message)
      (PhaseFailed start burst) := by
  unfold sendPhase
  rw [ends_bind]
  refine (looks_before world plans phase burst remaining latest start).imp
    (fun latest middle looked => ?_) fun _ _ failed => Or.inl ⟨failed.1.sent, failed.2.os⟩
  by_cases empty : burst.isEmpty = true
  · rw [if_pos empty]
    show middle.sent = _
    rw [looked.sent, List.isEmpty_iff.mp empty]
    exact (List.append_nil _).symm
  · rw [if_neg empty, ends_bind]
    refine (looks_guardCheck world sending.config guard middle).imp (fun _ later looked' => ?_)
      fun _ _ failed => Or.inl ⟨failed.1.sent.trans looked.sent, failed.2.os⟩
    have same : later.sent = start.sent := looked'.sent.trans looked.sent
    rw [ends_bind]
    refine (send_ends world _ later).imp (fun _ stop all => ?_) fun problem stop failed => ?_
    · show stop.sent = _
      rw [all, same]
    · obtain ⟨cause, count, account, sent⟩ := failed
      exact Or.inr ⟨cause, count, account, by rw [sent, same]⟩

/-- The writes of phases, in the order they go out. -/
def inOrder (phases : List Phase) : List Write :=
  phases.flatMap sending.wanted.burst

/-- How a plan fails, behind paths that went out before: with the account of how far its writes
came. -/
def PlanFailed (start : Session) (written : List Path) (writes : List Write) (problem : Raised)
    (stop : Session) : Prop :=
  ∃ cause count, problem = .writeFailed cause (written ++ writePaths (writes.take count))
      (writePaths (writes.drop count))
    ∧ stop.sent = start.sent ++ (writes.take count).map Write.message

/-- A part of a burst is a part of what begins with the burst. -/
theorem take_min_append (burst after : List Write) (count : ℕ) :
    (burst ++ after).take (min count burst.length) = burst.take count := by
  rw [List.take_append_of_le_length (Nat.min_le_right _ _), ← List.take_eq_take_min]

theorem drop_min_append (burst after : List Write) (count : ℕ) :
    (burst ++ after).drop (min count burst.length) = burst.drop count ++ after := by
  rw [List.drop_append_of_le_length (Nat.min_le_right _ _)]
  apply congrArg (· ++ after)
  by_cases short : count ≤ burst.length
  · rw [Nat.min_eq_left short]
  · have long : burst.length ≤ count := Nat.le_of_not_le short
    rw [Nat.min_eq_right long, List.drop_length, List.drop_eq_nil_of_le long]

/-- The account of a phase that failed: a part of its burst, and everything behind that pending. -/
theorem phaseFailed_account {start stop : Session} {burst : List Write} {problem : Raised}
    (failed : PhaseFailed start burst problem stop) (written after : List Path) :
    ∃ cause count, accountFor written (writePaths burst) after problem
        = .writeFailed cause (written ++ writePaths (burst.take count)) (writePaths (burst.drop count) ++ after)
      ∧ stop.sent = start.sent ++ (burst.take count).map Write.message := by
  rcases failed with ⟨sent, cause, rfl⟩ | ⟨cause, count, account, sent⟩
  · refine ⟨cause, 0, ?_, by simpa using sent⟩
    simp [accountFor, writePaths]
  · subst account
    refine ⟨cause, count, ?_, by rw [sent, List.map_take]⟩
    simp [accountFor, messagePaths, writePaths, Function.comp_def, Write.message, List.map_take,
      List.map_drop]

/-- A failure of a phase is one of the plan, with the phases ahead pending. -/
theorem phaseFailed_plan {start stop : Session} {written : List Path} {burst after : List Write}
    {problem : Raised} (failed : PhaseFailed start burst problem stop) :
    PlanFailed start written (burst ++ after)
      (accountFor written (writePaths burst) (writePaths after) problem) stop := by
  obtain ⟨cause, count, account, sent⟩ := phaseFailed_account failed written (writePaths after)
  refine ⟨cause, min count burst.length, ?_, ?_⟩
  · rw [take_min_append, drop_min_append, account]
    simp [writePaths]
  · rw [take_min_append]
    exact sent

theorem sendPhases_ends (plans : sending.Plans) (phases : List Phase) (written : List Path) (latest : Reports)
    (guard : Option PlaybackState) (start : Session) :
    Ends (sending.sendPhases world written latest guard phases) start
      (fun _ stop => stop.sent = start.sent ++ (sending.inOrder phases).map Write.message)
      (PlanFailed start written (sending.inOrder phases)) := by
  induction phases generalizing written latest guard start with
  | nil => exact (List.append_nil _).symm
  | cons phase rest ih =>
      have whole : sending.inOrder (phase :: rest)
          = sending.wanted.burst phase ++ sending.inOrder rest := rfl
      unfold sendPhases
      rw [whole]
      by_cases done : ((sending.wanted.burst phase).isEmpty
          && (writePaths (rest.flatMap sending.wanted.burst)).isEmpty) = true
      · rw [if_pos done]
        simp only [writePaths, Bool.and_eq_true, List.isEmpty_iff, List.map_eq_nil_iff] at done
        show start.sent = _
        rw [done.1, show sending.inOrder rest = [] from done.2]
        exact (List.append_nil _).symm
      · rw [if_neg done, ends_bind, ends_askStop]
        generalize asked : { start with clock := start.clock + 1 } = middle
        have looked : Looked start middle :=
          asked ▸ ⟨⟨[], (List.append_nil _).symm⟩, fun held => held⟩
        by_cases stop : world.stop start.clock = true
        · rw [if_pos stop]
          refine ⟨.stopped .phase, 0, ?_, by simpa using looked.sent⟩
          simp [writePaths, inOrder]
        · rw [if_neg stop, ends_bind, ends_catch]
          refine (sendPhase_ends world plans phase _ _ latest guard middle).imp
            (fun value later all => ?_) fun problem stop failed => ?_
          · refine (ih _ _ _ later).imp (fun _ stop more => ?_) fun problem stop failed => ?_
            · rw [more, all, looked.sent, List.map_append, List.append_assoc]
            · have took (count : ℕ) : (sending.wanted.burst phase ++ sending.inOrder rest).take
                  ((sending.wanted.burst phase).length + count)
                  = sending.wanted.burst phase ++ (sending.inOrder rest).take count := by
                rw [List.take_length_add_append]
              have left (count : ℕ) : (sending.wanted.burst phase ++ sending.inOrder rest).drop
                  ((sending.wanted.burst phase).length + count)
                  = (sending.inOrder rest).drop count := by
                rw [List.drop_length_add_append]
              obtain ⟨cause, count, same, sent⟩ := failed
              refine ⟨cause, (sending.wanted.burst phase).length + count, ?_, ?_⟩
              · rw [took, left, same]
                simp [writePaths]
              · rw [took, sent, all, looked.sent, List.map_append, List.append_assoc]
          · have same : PhaseFailed start (sending.wanted.burst phase) problem stop := by
              rcases failed with ⟨sent, plain⟩ | ⟨cause, count, account, sent⟩
              · exact Or.inl ⟨sent.trans looked.sent, plain⟩
              · exact Or.inr ⟨cause, count, account, by rw [sent, looked.sent]⟩
            exact phaseFailed_plan same

end Sending

end OscmixDesk
