/-
**The life of an operation.**

What an operation did is read by a `Conduct`, deed by deed: whether it is open, holds the lease, has ended,
failed or been left, whether its connection and its lock are held, and which acknowledged writes the journal
has not got yet. `Conduct.Allows` says what may come next. Every run of every operation keeps to it
(`lifecycle`): one BEGIN and one END, no write behind END, a failure or the end, and a lock that is released
once, behind the connection and the journal. An apply before the operation is open fails the apply, and not
the operation (`applied_unopened`).
-/

import OscmixDesk.Foundation.Traces
import OscmixDesk.Model.Desk

namespace OscmixDesk

open Effects

/-! ### Conduct -/

/-- What the deeds of an operation come to. -/
structure Conduct where
  opened : Bool := false
  begun : Bool := false
  ended : Bool := false
  failed : Bool := false
  left : Bool := false
  connected : Bool := false
  held : Bool := false
  released : Bool := false
  /-- The last acknowledged write of a register, until the journal gets it. -/
  owed : Path → Option Message := fun _ => none

/-- Whether an operation has failed once this method raises an `OSError`. -/
def Method.fails (opened : Bool) : Method → Bool
  | .apply _ => opened
  | .verify => true
  | .repair => true
  | _ => false

namespace Conduct

/-- Finished, failed or left. -/
def concluded (conduct : Conduct) : Bool :=
  conduct.ended || conduct.failed || conduct.left

/-- What is owed, after an event of the connection. -/
def owe (owed : Path → Option Message) : Event → Path → Option Message
  | .write message .done => Function.update owed message.path (some message)
  | .write _ .lost => owed
  | .write _ .refused => owed
  | .window _ => owed

def next (conduct : Conduct) : Deed → Conduct
  | .locked => { conduct with held := true }
  | .connected => { conduct with connected := true }
  | .opened => { conduct with opened := true }
  | .begun => { conduct with begun := true }
  | .on event => { conduct with owed := owe conduct.owed event }
  | .ended => { conduct with ended := true }
  | .left => { conduct with left := true }
  | .disconnected => { conduct with connected := false }
  | .handed written =>
      { conduct with owed := fun path => (conduct.owed path).filter (!written.contains ·) }
  | .unlocked => { conduct with held := false, released := true }
  | .raised method mishap =>
      { conduct with failed := conduct.failed || method.fails conduct.opened && mishap.isOs }

/-- What may come next. -/
def Allows (conduct : Conduct) : Deed → Prop
  | .locked => conduct.held = false ∧ conduct.released = false
  | .begun => conduct.begun = false ∧ conduct.concluded = false
  | .on _ => conduct.begun = true ∧ conduct.concluded = false
  | .ended => conduct.begun = true ∧ conduct.ended = false
  | .unlocked => conduct.held = true ∧ conduct.connected = false ∧ ∀ path, conduct.owed path = none
  | _ => True

end Conduct

/-- The conduct of an operation that may have been given its connection. -/
def conduct (given : Bool) (deeds : List Deed) : Conduct :=
  deeds.foldl Conduct.next { connected := given }

/-- The deeds of an operation that keeps to it. -/
def Conducted (given : Bool) (deeds : List Deed) : Prop :=
  Traces.Lawful Conduct.next Conduct.Allows { connected := given } deeds

theorem conduct_append (given : Bool) (deeds : List Deed) (deed : Deed) :
    conduct given (deeds ++ [deed]) = (conduct given deeds).next deed := by
  simp [conduct]

/-! ### What an operation keeps -/

namespace Desk

variable {given ended failed released : Bool} {desk : Desk}

/-- No further work: left, finished, failed, or without its connection. -/
def spent (desk : Desk) : Bool :=
  desk.closed || desk.finished || desk.failed || desk.opened && !desk.backend

/-- The conduct an operation shows. -/
def shown (desk : Desk) (ended failed released : Bool) : Conduct where
  opened := desk.opened
  begun := desk.lease || desk.finished
  ended := ended
  failed := failed
  left := desk.closed
  connected := desk.backend
  held := desk.lock && !released
  released := released
  owed := desk.written.get?

/-- What holds of an operation within its methods. -/
structure Kept (given ended failed released : Bool) (desk : Desk) : Prop where
  conducted : Conducted given desk.deeds
  shows : conduct given desk.deeds = desk.shown ended failed released
  ended : ended → desk.finished
  failed : failed → desk.spent ∨ desk.reader
  released : released → desk.closed
  reader : desk.reader → desk.lease = false ∧ desk.finished = false
  leased : desk.lease → desk.opened ∧ desk.finished = false
  finished : desk.finished → desk.opened

/-- One more deed, which the flags of the operation show. -/
theorem Kept.did {deed : Deed} {desk' : Desk} {ended' failed' released' : Bool}
    (kept : Kept given ended failed released desk) (deeds : desk'.deeds = desk.deeds ++ [deed])
    (allows : (desk.shown ended failed released).Allows deed)
    (shows : (desk.shown ended failed released).next deed = desk'.shown ended' failed' released')
    (endeds : ended' → desk'.finished) (faileds : failed' → desk'.spent ∨ desk'.reader)
    (releaseds : released' → desk'.closed)
    (reader : desk'.reader → desk'.lease = false ∧ desk'.finished = false)
    (leased : desk'.lease → desk'.opened ∧ desk'.finished = false)
    (finished : desk'.finished → desk'.opened) : Kept given ended' failed' released' desk' := by
  refine ⟨?_, ?_, endeds, faileds, releaseds, reader, leased, finished⟩
  · have allowed : (conduct given desk.deeds).Allows deed := kept.shows ▸ allows
    rw [deeds]
    exact kept.conducted.append allowed
  · rw [deeds, conduct_append, kept.shows, shows]

/-- What the work of an operation leaves alone. -/
structure Frame (before after : Desk) : Prop where
  opened : after.opened = before.opened
  closed : after.closed = before.closed
  lock : after.lock = before.lock
  reader : after.reader = before.reader

/-! ### Small steps -/

section Steps

variable (world : World) (premises : Premises)

@[simp] theorem ends_get {ok : Desk → Desk → Prop} {stopped : Mishap → Desk → Prop} :
    Ends get desk ok stopped ↔ ok desk desk := Iff.rfl

@[simp] theorem ends_change {step : Desk → Desk} {ok : Unit → Desk → Prop}
    {stopped : Mishap → Desk → Prop} : Ends (change step) desk ok stopped ↔ ok () (step desk) := Iff.rfl

@[simp] theorem ends_did {deed : Deed} {ok : Unit → Desk → Prop} {stopped : Mishap → Desk → Prop} :
    Ends (did deed) desk ok stopped ↔ ok () { desk with deeds := desk.deeds ++ [deed] } := Iff.rfl

@[simp] theorem ends_question {ok : ℕ → Desk → Prop} {stopped : Mishap → Desk → Prop} :
    Ends question desk ok stopped ↔ ok desk.session.clock
      { desk with session := { desk.session with clock := desk.session.clock + 1 } } := Iff.rfl

/-- A last step runs however the first one ends. -/
theorem ends_ensuring {α : Type} {first : Operate α} {last : Operate Unit} {ok : α → Desk → Prop}
    {stopped : Mishap → Desk → Prop}
    (ends : Ends first desk (fun value d => Ends last d (fun _ => ok value) stopped)
      fun mishap d => Ends last d (fun _ => stopped mishap) stopped) :
    Ends (ensuring first last) desk ok stopped := by
  unfold ensuring
  rw [ends_bind, ends_catch]
  refine ends.imp (fun value d known => ?_) fun mishap d known => ?_
  · rw [ends_bind]
    exact known
  · rw [ends_bind]
    exact known

/-- The time does not matter. -/
theorem Kept.session (kept : Kept given ended failed released desk) (session : Session) :
    Kept given ended failed released { desk with session := session } :=
  ⟨kept.conducted, kept.shows, kept.ended, kept.failed, kept.released, kept.reader, kept.leased, kept.finished⟩

/-- A desk that has failed is spent. -/
theorem Kept.abort (kept : Kept given ended failed released desk) (aborted : Bool) (session : Session) :
    Kept given ended failed released { desk with failed := true, aborted := aborted, session := session } :=
  ⟨kept.conducted, kept.shows, kept.ended, fun _ => Or.inl (by simp [spent]), kept.released, kept.reader,
    kept.leased, kept.finished⟩

/-- A stop aborts; otherwise only time has passed. -/
theorem ends_checkStop {ok : Unit → Desk → Prop} {stopped : Mishap → Desk → Prop}
    (goes : ∀ session, ok () { desk with session := session })
    (stops : ∀ session, stopped .cancelled { desk with failed := true, aborted := true, session := session }) :
    Ends (checkStop world) desk ok stopped := by
  unfold checkStop
  rw [ends_bind, ends_question, ends_ite]
  exact ⟨fun _ => stops _, fun _ => goes _⟩

/-- Work is refused, or the operation is open, and not spent. -/
theorem ends_control {ok : Unit → Desk → Prop} {stopped : Mishap → Desk → Prop}
    (goes : ∀ session, desk.opened = true → desk.spent = false → ok () { desk with session := session })
    (refused : desk.opened = false ∨ desk.spent = true → stopped .unusable desk)
    (stops : ∀ session, stopped .cancelled { desk with failed := true, aborted := true, session := session }) :
    Ends (control world) desk ok stopped := by
  unfold control
  rw [ends_bind, ends_get, ends_ite]
  refine ⟨fun blocked => refused ?_, fun usable => ends_checkStop world (fun session => goes session ?_ ?_) stops⟩
  · cases opened : desk.opened <;> simp_all [spent]
  · simp_all
  · simp_all [spent]

end Steps

/-! ### Work on the connection -/

/-- An operation at work: it holds the lease, and nothing has ended it. -/
structure Working (desk : Desk) : Prop where
  lease : desk.lease = true
  opened : desk.opened = true
  usable : desk.spent = false
  writer : desk.reader = false

/-- An operation that can still work has not ended, failed or been left. -/
theorem Kept.going (kept : Kept given ended failed released desk) (usable : desk.spent = false)
    (writer : desk.reader = false) : (desk.shown ended failed released).concluded = false := by
  simp only [spent, Bool.or_eq_false_iff] at usable
  obtain ⟨⟨⟨closed, finished⟩, unfailed⟩, connected⟩ := usable
  have unended : ended = false := by
    apply Bool.eq_false_iff.mpr
    intro concluded
    rw [kept.ended concluded] at finished
    cases finished
  have unfailed : failed = false := by
    apply Bool.eq_false_iff.mpr
    intro concluded
    rcases kept.failed concluded with spent | reader
    · simp [Desk.spent, closed, finished, unfailed, connected] at spent
    · rw [reader] at writer
      cases writer
  simp [Conduct.concluded, shown, unended, unfailed, closed]

/-- What the acknowledged writes of an event leave to be handed on. -/
theorem owe_wrote (written : Keyed Message.path) (event : Event) :
    Conduct.owe written.get? event = (wrote written event).get? := by
  cases event with
  | window reports => rfl
  | write message fate =>
      cases fate with
      | lost => rfl
      | refused => rfl
      | done =>
          funext path
          rw [Conduct.owe, wrote, Keyed.get?_put, Function.update_apply]

/-- What happens on the connection of an operation at work is allowed. -/
theorem Kept.events (kept : Kept given ended failed released desk) (working : Working desk)
    (events : List Event) :
    Kept given ended failed released { desk with
      written := events.foldl wrote desk.written
      deeds := desk.deeds ++ events.map .on } := by
  induction events generalizing desk with
  | nil =>
      rw [List.map_nil, List.append_nil]
      exact kept
  | cons event rest ih =>
      have step : Kept given ended failed released { desk with
          written := wrote desk.written event
          deeds := desk.deeds ++ [.on event] } := by
        refine kept.did rfl ⟨?_, kept.going working.usable working.writer⟩ ?_ kept.ended kept.failed
          kept.released kept.reader kept.leased kept.finished
        · simp [shown, working.lease]
        · simp only [Conduct.next, shown, owe_wrote]
      have more := ih step ⟨working.lease, working.opened, working.usable, working.writer⟩
      rw [List.append_assoc] at more
      exact more

/-- Work changes what is written, and nothing else of the operation. -/
theorem onConnection_kept {α : Type} (act : Act α) (kept : Kept given ended failed released desk)
    (working : Working desk) :
    Ends (onConnection act) desk (fun _ d => Kept given ended failed released d ∧ Working d ∧ Frame desk d)
      fun _ d => Kept given ended failed released d ∧ Working d ∧ Frame desk d := by
  have known (session : Session) (events : List Event) :
      let d := { desk with
        written := events.foldl wrote desk.written
        session := session
        deeds := desk.deeds ++ events.map .on }
      Kept given ended failed released d ∧ Working d ∧ Frame desk d :=
    ⟨(kept.events working events).session session,
      ⟨working.lease, working.opened, working.usable, working.writer⟩, rfl, rfl, rfl, rfl⟩
  unfold onConnection Ends
  dsimp only
  rcases act { desk.session with events := [] } with ⟨raised | value, after⟩
  · exact known _ _
  · exact known _ _

/-- An act that does nothing on the connection changes the time at most. -/
theorem onConnection_quiet {α : Type} {act : Act α} {ok : α → Desk → Prop} {stopped : Mishap → Desk → Prop}
    (quiet : ∀ session, (act session).2.events = session.events)
    (goes : ∀ session value, ok value { desk with session := session })
    (stops : ∀ session problem, stopped (.raised problem) { desk with session := session }) :
    Ends (onConnection act) desk ok stopped := by
  have same := quiet { desk.session with events := [] }
  unfold onConnection Ends
  dsimp only
  rcases result : act { desk.session with events := [] } with ⟨raised | value, after⟩
  · have none : after.events = [] := by rw [result] at same; exact same
    rw [none, List.foldl_nil, List.map_nil, List.append_nil]
    exact stops _ _
  · have none : after.events = [] := by rw [result] at same; exact same
    rw [none, List.foldl_nil, List.map_nil, List.append_nil]
    exact goes _ _

/-- A planner does nothing on the connection. -/
theorem planned_quiet {α : Type} (result : Except Fault α) (session : Session) :
    (planned result session).2.events = session.events := by
  cases result <;> rfl

/-! ### Methods that work -/

/-- What a piece of work leaves. -/
structure After (given ended failed released : Bool) (before after : Desk) : Prop where
  kept : Kept given ended failed released after
  frame : Frame before after

/-- No method works any more. -/
def Useless (desk : Desk) : Prop :=
  desk.spent = true ∨ desk.reader = true

theorem useless_failed {desk : Desk} (failed : desk.failed = true) : Useless desk := by
  left
  simp [spent, failed]

theorem Frame.refl (desk : Desk) : Frame desk desk :=
  ⟨rfl, rfl, rfl, rfl⟩

theorem Frame.trans {first second third : Desk} (one : Frame first second) (two : Frame second third) :
    Frame first third :=
  ⟨two.opened.trans one.opened, two.closed.trans one.closed, two.lock.trans one.lock,
    two.reader.trans one.reader⟩

section Work

variable (world : World) (premises : Premises)

theorem begin_kept (kept : Kept given ended failed released desk) :
    Ends (begin world premises) desk
      (fun _ d => After given ended failed released desk d ∧ Working d)
      fun _ d => After given ended failed released desk d ∧ (desk.opened = true → Useless d) := by
  unfold begin
  rw [ends_bind]
  refine ends_control world (fun session opened usable => ?_) (fun refused => ?_) fun session => ?_
  · rw [ends_bind, ends_get, ends_ite]
    refine ⟨fun reader => ?_, fun writer => ?_⟩
    · exact ⟨⟨kept.session session, rfl, rfl, rfl, rfl⟩, fun _ => Or.inr reader⟩
    rw [ends_bind, ends_get, ends_ite]
    have writer : desk.reader = false := Bool.eq_false_iff.mpr writer
    refine ⟨fun lease => ?_, fun free => ?_⟩
    · exact ⟨⟨kept.session session, rfl, rfl, rfl, rfl⟩, lease, opened, usable, writer⟩
    have free : desk.lease = false := Bool.eq_false_iff.mpr free
    rw [ends_bind, ends_question]
    cases premises.begins session.clock with
    | some cause =>
        rw [abort, ends_bind, ends_change]
        refine ⟨⟨kept.abort _ _, rfl, rfl, rfl, rfl⟩, fun _ => useless_failed rfl⟩
    | none =>
        rw [ends_bind, ends_change, ends_did]
        have unfinished : desk.finished = false := by
          simp only [spent, Bool.or_eq_false_iff] at usable
          exact usable.1.1.2
        refine ⟨⟨?_, rfl, rfl, rfl, rfl⟩, rfl, opened, usable, writer⟩
        refine kept.did rfl ⟨?_, kept.going usable writer⟩ ?_ kept.ended kept.failed kept.released ?_ ?_ kept.finished
        · simp [shown, free, unfinished]
        · simp [Conduct.next, shown]
        · exact fun reader => absurd reader (by simp [writer])
        · exact fun _ => ⟨opened, unfinished⟩
  · refine ⟨⟨kept, Frame.refl desk⟩, fun opened => refused.elim (fun never => ?_) Or.inl⟩
    rw [opened] at never
    cases never
  · exact ⟨⟨kept.abort _ _, rfl, rfl, rfl, rfl⟩, fun _ => useless_failed rfl⟩

/-- What was acknowledged is handed on. -/
theorem record_kept (kept : Kept given ended failed released desk) :
    Ends record desk (fun _ d => After given ended failed released desk d ∧ d.written = Keyed.empty
        ∧ d.backend = desk.backend ∧ d.failed = desk.failed ∧ d.finished = desk.finished)
      fun _ _ => False := by
  unfold record
  rw [ends_bind, ends_get, ends_bind, ends_change, ends_did]
  refine ⟨⟨?_, rfl, rfl, rfl, rfl⟩, rfl, rfl, rfl, rfl⟩
  refine kept.did rfl trivial ?_ kept.ended kept.failed kept.released kept.reader kept.leased kept.finished
  have cleared : (fun path => (desk.written.get? path).filter (!desk.written.items.contains ·))
      = (Keyed.empty : Keyed Message.path).get? := by
    funext path
    cases held : desk.written.get? path with
    | none => rfl
    | some message =>
        have member : message ∈ desk.written.items := ((desk.written.get?_eq_some path message).mp held).1
        simp [Option.filter, member, Keyed.get?, Keyed.empty]
  simp only [Conduct.next, shown, cleared]

end Work

theorem After.session {before after : Desk} (known : After given ended failed released before after)
    (session : Session) : After given ended failed released before { after with session := session } :=
  ⟨known.kept.session session, known.frame.opened, known.frame.closed, known.frame.lock, known.frame.reader⟩

theorem After.abort {before after : Desk} (known : After given ended failed released before after)
    (aborted : Bool) (session : Session) : After given ended failed released before
      { after with failed := true, aborted := aborted, session := session } :=
  ⟨known.kept.abort aborted session, known.frame.opened, known.frame.closed, known.frame.lock,
    known.frame.reader⟩

theorem After.trans {first second third : Desk} (one : After given ended failed released first second)
    (two : After given ended failed released second third) : After given ended failed released first third :=
  ⟨two.kept, one.frame.trans two.frame⟩

/-- What a piece of work does once the lease is held, however it ends. -/
def AtWork (given ended failed released : Bool) (before after : Desk) : Prop :=
  Kept given ended failed released after ∧ Working after ∧ Frame before after

theorem onConnection_atWork {α : Type} (act : Act α) {start : Desk}
    (work : AtWork given ended failed released start desk) :
    Ends (onConnection act) desk (fun _ => AtWork given ended failed released start)
      fun _ => AtWork given ended failed released start := by
  obtain ⟨kept, working, frame⟩ := work
  refine (onConnection_kept act kept working).imp (fun _ d known => ?_) fun _ d known => ?_
  · exact ⟨known.1, known.2.1, frame.trans known.2.2⟩
  · exact ⟨known.1, known.2.1, frame.trans known.2.2⟩

section Work

variable (world : World) (premises : Premises)

theorem submit_atWork (intent : ApplyIntent) {start : Desk}
    (work : AtWork given ended failed released start desk) :
    Ends (submit world intent) desk (fun _ => AtWork given ended failed released start)
      fun _ => AtWork given ended failed released start := by
  unfold submit
  rw [ends_ite]
  refine ⟨fun _ => ?_, fun _ => ?_⟩
  · rw [ends_bind, ends_get]
    exact onConnection_atWork _ work
  · unfold Desk.start
    rw [ends_bind, ends_bind, ends_get, ends_ite]
    refine ⟨fun _ => ?_, fun _ => onConnection_atWork _ work⟩
    rw [ends_bind]
    exact (onConnection_atWork _ work).imp (fun observed d work => onConnection_atWork _ work)
      fun _ _ known => known

theorem apply_kept (intent : ApplyIntent) (kept : Kept given ended failed released desk) :
    Ends (apply world premises intent) desk (fun _ => After given ended failed released desk)
      fun mishap d => After given ended failed released desk d
        ∧ (mishap.isOs = true → desk.opened = true → Useless d) := by
  unfold apply
  rw [ends_bind]
  refine (begin_kept world premises kept).imp (fun _ d begun => ?_) fun _ d refused => ?_
  · obtain ⟨⟨kept, frame⟩, working⟩ := begun
    rw [ends_bind]
    refine ends_ensuring ?_
    rw [ends_catch]
    refine (submit_atWork world intent ⟨kept, working, frame⟩).imp (fun _ d work => ?_) fun mishap d work => ?_
    · obtain ⟨kept, -, frame⟩ := work
      refine (record_kept kept).imp (fun _ e known => ?_) fun _ _ never => never.elim
      have known : After given ended failed released desk e := After.trans ⟨kept, frame⟩ known.1
      rw [ends_bind, ends_question, ends_ite]
      exact ⟨fun _ => known.abort _ _, fun _ => known.session _⟩
    · obtain ⟨kept, -, frame⟩ := work
      rw [ends_ite]
      refine ⟨fun _ => ?_, fun other => ?_⟩
      · rw [ends_bind, Desk.abort, ends_change, ends_throw]
        refine (record_kept (kept.abort true d.session)).imp (fun _ e known => ?_) fun _ _ never => never.elim
        refine ⟨After.trans ⟨kept.abort true d.session, ?_⟩ known.1, fun _ _ => useless_failed known.2.2.2.1⟩
        exact ⟨frame.opened, frame.closed, frame.lock, frame.reader⟩
      · rw [ends_throw]
        refine (record_kept kept).imp (fun _ e known => ?_) fun _ _ never => never.elim
        exact ⟨After.trans ⟨kept, frame⟩ known.1, fun os => absurd os other⟩
  · exact ⟨refused.1, fun _ => refused.2⟩

end Work

/-! ### Methods that read back -/

/-- Waiting does nothing on the connection. -/
theorem waitUnlessStopped_quiet (world : World) (settling : List (Option (List Message))) (session : Session) :
    (waitUnlessStopped world settling session).2.events = session.events := by
  have quiet : Ends (waitUnlessStopped world settling) session
      (fun _ after => after.events = session.events) fun _ after => after.events = session.events := by
    induction settling generalizing session with
    | nil => exact rfl
    | cons delivery rest ih =>
        unfold waitUnlessStopped askStop tick OscmixDesk.close
        rw [ends_bind, ends_bind, ends_update, ends_pure, ends_ite]
        refine ⟨fun _ => rfl, fun _ => ?_⟩
        cases delivery with
        | none => exact rfl
        | some reports => exact ih { session with clock := session.clock + 1 }
  rcases result : waitUnlessStopped world settling session with ⟨problem | value, after⟩
  · exact quiet.raised result
  · exact quiet.returned result

section Work

variable (world : World) (premises : Premises)

/-- A failure that is an `OSError` is noted, unless the operation reads only. -/
theorem noteFailure_kept {α : Type} {mishap : Mishap} (aborted : Desk → Bool) {start : Desk}
    (known : After given ended failed released start desk) :
    Ends (do
        if mishap.isOs && !(← get).reader then
          change fun desk => { desk with failed := true, aborted := aborted desk }
        throw mishap : Operate α) desk (fun _ _ => False)
      fun raised d => raised = mishap ∧ After given ended failed released start d
        ∧ (mishap.isOs = true → Useless d) := by
  rw [ends_bind, ends_get, ends_ite]
  refine ⟨fun _ => ?_, fun other => ?_⟩
  · rw [ends_bind, ends_change, ends_throw]
    exact ⟨rfl, known.abort _ desk.session, fun _ => useless_failed rfl⟩
  · rw [ends_throw]
    refine ⟨rfl, known, fun os => Or.inr ?_⟩
    simpa [os] using other

theorem verify_kept (kept : Kept given ended failed released desk) :
    Ends (verify world premises) desk (fun _ => After given ended failed released desk)
      fun mishap d => After given ended failed released desk d ∧ (mishap.isOs = true → Useless d) := by
  have quiet (session : Session) : After given ended failed released desk { desk with session := session } :=
    ⟨kept.session session, rfl, rfl, rfl, rfl⟩
  unfold verify
  rw [ends_catch, ends_bind, ends_get, ends_bind]
  refine onConnection_quiet (planned_quiet _) (fun session registers => ?_) fun session problem => ?_
  · rw [ends_bind]
    refine (begin_kept world premises (quiet session).kept).imp (fun _ d begun => ?_) fun mishap d refused => ?_
    · refine (onConnection_atWork _ ⟨begun.1.kept, begun.2, (quiet session).frame.trans begun.1.frame⟩).imp
        (fun _ e work => ⟨work.1, work.2.2⟩) fun mishap e work => ?_
      exact (noteFailure_kept Desk.aborted ⟨work.1, work.2.2⟩).imp (fun _ _ never => never.elim)
        fun _ _ known => known.1 ▸ known.2
    · exact (noteFailure_kept Desk.aborted ((quiet session).trans refused.1)).imp (fun _ _ never => never.elim)
        fun _ _ known => known.1 ▸ known.2
  · exact (noteFailure_kept Desk.aborted (quiet session)).imp
      (fun _ _ never => never.elim) fun _ _ known => known.1 ▸ known.2

theorem repair_kept (kept : Kept given ended failed released desk) :
    Ends (repair world premises) desk (fun _ => After given ended failed released desk)
      fun mishap d => After given ended failed released desk d ∧ (mishap.isOs = true → Useless d) := by
  unfold repair
  rw [ends_catch, ends_bind, ends_get, ends_bind]
  refine (begin_kept world premises kept).imp (fun _ d begun => ?_) fun mishap d refused => ?_
  · refine (onConnection_atWork _ ⟨begun.1.kept, begun.2, begun.1.frame⟩).imp
      (fun _ e work => ⟨work.1, work.2.2⟩) fun mishap e work => ?_
    exact (noteFailure_kept (fun d => d.aborted || mishap.isWriteFailed) ⟨work.1, work.2.2⟩).imp
      (fun _ _ never => never.elim) fun _ _ known => known.1 ▸ known.2
  · exact (noteFailure_kept (fun d => d.aborted || mishap.isWriteFailed) refused.1).imp
      (fun _ _ never => never.elim) fun _ _ known => known.1 ▸ known.2

theorem wait_kept (kept : Kept given ended failed released desk) :
    Ends (wait world) desk (fun _ => After given ended failed released desk)
      fun _ => After given ended failed released desk := by
  have quiet (session : Session) : After given ended failed released desk { desk with session := session } :=
    ⟨kept.session session, rfl, rfl, rfl, rfl⟩
  unfold wait
  rw [ends_bind]
  refine ends_control world (fun session _ _ => ?_) (fun _ => ⟨kept, Frame.refl desk⟩) fun session => ?_
  · rw [ends_bind, ends_question, ends_bind]
    refine onConnection_quiet (waitUnlessStopped_quiet world _) (fun session stopped => ?_)
      fun session _ => quiet session
    rw [ends_ite]
    refine ⟨fun _ => ?_, fun _ => quiet session⟩
    exact (quiet session).abort true session
  · exact (quiet session).abort true session

end Work

/-! ### Giving back -/

section GivingBack

variable (premises : Premises)

theorem finish_kept (kept : Kept given ended failed released desk) :
    Ends (finish premises) desk (fun _ d => ∃ ended', After given ended' failed released desk d)
      fun _ d => ∃ ended', After given ended' failed released desk d := by
  unfold finish
  rw [ends_bind, ends_get, ends_ite]
  refine ⟨fun lease => ?_, fun _ => ⟨ended, kept, Frame.refl desk⟩⟩
  have unended : ended = false := by
    apply Bool.eq_false_iff.mpr
    intro concluded
    have finished := kept.ended concluded
    rw [(kept.leased lease).2] at finished
    cases finished
  have done (session : Session) : Kept given ended failed released
      { desk with lease := false, finished := true, session := session } := by
    refine ⟨kept.conducted, ?_, fun _ => rfl, fun _ => Or.inl (by simp [spent]), kept.released, ?_,
      fun lease => absurd lease Bool.false_ne_true,
      fun _ => (kept.leased lease).1⟩
    · rw [kept.shows]
      simp [shown, lease]
    · intro reader
      rw [(kept.reader reader).1] at lease
      cases lease
  rw [ends_bind, ends_change, ends_bind, ends_get, ends_ite]
  refine ⟨fun _ => ?_, fun _ => ⟨ended, done desk.session, rfl, rfl, rfl, rfl⟩⟩
  have ends (session : Session) : Kept given true failed released
      { desk with
        lease := false
        finished := true
        session := session
        deeds := desk.deeds ++ [.ended] } := by
    refine (done session).did rfl ⟨rfl, unended⟩ ?_ (fun _ => rfl) (fun _ => Or.inl (by simp [spent]))
      kept.released (done session).reader (done session).leased (done session).finished
    simp [Conduct.next, shown]
  rw [ends_bind, ends_question, ends_bind, ends_change]
  dsimp only
  cases premises.ends desk.session.clock with
  | acknowledged => exact ⟨true, ends _, rfl, rfl, rfl, rfl⟩
  | unacknowledged => exact ⟨true, ends _, rfl, rfl, rfl, rfl⟩
  | unsent => exact ⟨ended, done _, rfl, rfl, rfl, rfl⟩

theorem disconnect_kept (kept : Kept given ended failed released desk) :
    Ends (disconnect premises) desk
      (fun _ d => After given ended failed released desk d ∧ d.backend = false)
      fun _ d => After given ended failed released desk d ∧ d.backend = false := by
  unfold disconnect
  rw [ends_bind, ends_get, ends_ite]
  refine ⟨fun connected => ?_, fun other => ⟨⟨kept, Frame.refl desk⟩, Bool.eq_false_iff.mpr other⟩⟩
  have gone (session : Session) : Kept given ended failed released
      { desk with
        backend := false
        session := session
        deeds := desk.deeds ++ [.disconnected] } := by
    refine kept.did rfl trivial rfl kept.ended (fun concluded => ?_) kept.released kept.reader kept.leased kept.finished
    refine (kept.failed concluded).imp_left fun spent => ?_
    simp only [Desk.spent, connected, Bool.not_true, Bool.and_false, Bool.or_false] at spent ⊢
    rw [spent, Bool.true_or]
  rw [ends_bind, ends_change, ends_bind, ends_did, ends_bind, ends_question]
  cases premises.closes desk.session.clock with
  | some cause => exact ⟨⟨gone _, rfl, rfl, rfl, rfl⟩, rfl⟩
  | none => exact ⟨⟨gone _, rfl, rfl, rfl, rfl⟩, rfl⟩

/-- An operation that was left: its lock, if it took one, is released. -/
structure Gone (given failed : Bool) (before after : Desk) : Prop where
  kept : ∃ ended, Kept given ended failed after.lock after
  closed : after.closed = true
  opened : after.opened = before.opened
  lock : after.lock = before.lock
  reader : after.reader = before.reader

/-- The lock goes last, behind the connection and the journal. -/
theorem unlock_gone (start : Desk) (kept : Kept given ended failed false desk) (closed : desk.closed = true)
    (connected : desk.backend = false) (written : desk.written = Keyed.empty)
    (opened : desk.opened = start.opened) (lock : desk.lock = start.lock) (reader : desk.reader = start.reader) :
    Ends unlock desk (fun _ => Gone given failed start) fun _ _ => False := by
  unfold unlock
  rw [ends_bind, ends_get, ends_ite]
  refine ⟨fun held => ?_, fun other => ?_⟩
  · rw [ends_did]
    refine ⟨⟨ended, ?_⟩, closed, opened, lock, reader⟩
    rw [show ({ desk with deeds := desk.deeds ++ [.unlocked] } : Desk).lock = true from held]
    refine kept.did rfl ⟨?_, connected, fun path => ?_⟩ ?_ kept.ended kept.failed (fun _ => closed) kept.reader
      kept.leased kept.finished
    · simp [shown, held]
    · rw [shown, written]
      rfl
    · simp [Conduct.next, shown]
  · have free : desk.lock = false := Bool.eq_false_iff.mpr other
    refine ⟨⟨ended, ?_⟩, closed, opened, lock, reader⟩
    rw [free]
    exact kept

theorem close_gone (finishing : Bool) (kept : Kept given ended failed false desk) (opened : desk.closed = false) :
    Ends (close premises finishing) desk (fun _ => Gone given failed desk) fun _ => Gone given failed desk := by
  unfold close
  rw [ends_bind, ends_get, ends_ite]
  refine ⟨fun closed => absurd closed (by simp [opened]), fun _ => ?_⟩
  rw [ends_bind, ends_change, ends_bind, ends_did]
  have left : Kept given ended failed false
      { desk with closed := true, deeds := desk.deeds ++ [.left] } := by
    refine kept.did rfl trivial rfl kept.ended (fun concluded => ?_) nofun kept.reader kept.leased kept.finished
    exact Or.inl (by simp [spent])
  have rest (ended : Bool) (d : Desk) (known : After given ended failed false { desk with closed := true } d) :
      Ends (ensuring (disconnect premises) (ensuring record unlock)) d (fun _ => Gone given failed desk)
        fun _ => Gone given failed desk := by
    have handed (e : Desk) (gone : After given ended failed false d e ∧ e.backend = false) :
        Ends (ensuring record unlock) e (fun _ => Gone given failed desk) fun _ => Gone given failed desk := by
      refine ends_ensuring ((record_kept gone.1.kept).imp (fun _ f recorded => ?_) fun _ _ never => never.elim)
      obtain ⟨after, written, connected, -⟩ := recorded
      have frame := (known.frame.trans gone.1.frame).trans after.frame
      exact (unlock_gone desk after.kept frame.closed (connected.trans gone.2) written frame.opened frame.lock
        frame.reader).imp (fun _ _ gone => gone) fun _ _ never => never.elim
    exact ends_ensuring ((disconnect_kept premises known.kept).imp (fun _ e gone => handed e gone)
      fun _ e gone => handed e gone)
  have finished : Ends (do if finishing && !(← get).aborted then finish premises : Operate Unit)
      { desk with closed := true, deeds := desk.deeds ++ [.left] }
      (fun _ d => ∃ ended', After given ended' failed false { desk with closed := true } d)
      fun _ d => ∃ ended', After given ended' failed false { desk with closed := true } d := by
    rw [ends_bind, ends_get, ends_ite]
    refine ⟨fun _ => ?_, fun _ => ⟨ended, left, rfl, rfl, rfl, rfl⟩⟩
    refine (finish_kept premises left).imp (fun _ d known => ?_) fun _ d known => ?_
    · obtain ⟨ended', known⟩ := known
      exact ⟨ended', known.kept, known.frame.opened, known.frame.closed, known.frame.lock, known.frame.reader⟩
    · obtain ⟨ended', known⟩ := known
      exact ⟨ended', known.kept, known.frame.opened, known.frame.closed, known.frame.lock, known.frame.reader⟩
  exact ends_ensuring (finished.imp (fun _ d known => known.elim fun ended' known => rest ended' d known)
    fun _ d known => known.elim fun ended' known => rest ended' d known)

end GivingBack

/-! ### Opening -/

/-- An operation on the way to its connection. -/
structure Opening (given ended failed : Bool) (desk : Desk) : Prop where
  kept : Kept given ended failed false desk
  opened : desk.opened = false
  closed : desk.closed = false

section Openings

variable (world : World) (premises : Premises)

theorem Opening.session (opening : Opening given ended failed desk) (session : Session) :
    Opening given ended failed { desk with session := session } :=
  ⟨opening.kept.session session, opening.opened, opening.closed⟩

theorem Opening.abort (opening : Opening given ended failed desk) (session : Session) :
    Opening given ended failed { desk with failed := true, aborted := true, session := session } :=
  ⟨opening.kept.abort true session, opening.opened, opening.closed⟩

theorem Opening.config (opening : Opening given ended failed desk) (config : Config) :
    Opening given ended failed { desk with config := config } :=
  ⟨⟨opening.kept.conducted, opening.kept.shows, opening.kept.ended, opening.kept.failed, opening.kept.released,
    opening.kept.reader, opening.kept.leased, opening.kept.finished⟩, opening.opened, opening.closed⟩

/-- Before it is open an operation holds no lease. -/
theorem Opening.idle (opening : Opening given ended failed desk) :
    desk.lease = false ∧ desk.finished = false := by
  refine ⟨Bool.eq_false_iff.mpr fun lease => ?_, Bool.eq_false_iff.mpr fun finished => ?_⟩
  · have opened := (opening.kept.leased lease).1
    rw [opening.opened] at opened
    cases opened
  · have opened := opening.kept.finished finished
    rw [opening.opened] at opened
    cases opened

theorem pin_opening (opening : Opening given ended failed desk) (free : desk.lock = false) :
    Ends (pin premises) desk (fun _ d => Opening given ended failed d ∧ d.lock = false)
      fun _ => Opening given ended failed := by
  unfold pin
  rw [ends_bind, ends_get, ends_ite]
  refine ⟨fun _ => ⟨opening, free⟩, fun _ => ?_⟩
  rw [ends_bind, ends_question]
  cases premises.target desk.session.clock with
  | error problem => exact opening.session _
  | ok serial => exact ⟨(opening.session _).config _, free⟩

theorem readAgain_opening (opening : Opening given ended failed desk) :
    Ends (readAgain premises) desk (fun _ => Opening given ended failed) fun _ => Opening given ended failed := by
  unfold readAgain
  cases premises.reread with
  | none => exact opening
  | some reread =>
      dsimp only
      rw [ends_bind, ends_get, ends_bind, ends_question]
      cases reread desk.session.clock desk.config with
      | error problem => exact opening.session _
      | ok fresh =>
          dsimp only
          rw [ends_bind]
          refine onConnection_quiet (planned_quiet _) (fun session _ => ?_) fun session _ => opening.session session
          rw [ends_ite]
          exact ⟨fun _ => opening.session session, fun _ => (opening.session session).config fresh⟩

theorem lockDevice_opening (opening : Opening given ended failed desk) (free : desk.lock = false) :
    Ends (lockDevice world premises) desk (fun _ => Opening given ended failed)
      fun _ => Opening given ended failed := by
  unfold lockDevice
  rw [ends_bind]
  refine (pin_opening premises opening free).imp (fun _ d pinned => ?_) fun _ _ opening => opening
  obtain ⟨opening, free⟩ := pinned
  rw [ends_bind, ends_question, ends_ite]
  refine ⟨fun _ => opening.session _, fun _ => ?_⟩
  rw [ends_bind, ends_change, ends_bind, ends_did, ends_bind]
  have kept := (opening.session { d.session with clock := d.session.clock + 1 }).kept
  have locked : Opening given ended failed { d with
      lock := true
      session := { d.session with clock := d.session.clock + 1 }
      deeds := d.deeds ++ [.locked] } := by
    refine ⟨kept.did rfl ⟨?_, rfl⟩ ?_ kept.ended kept.failed kept.released kept.reader kept.leased kept.finished,
      opening.opened, opening.closed⟩
    · simp [shown, free]
    · simp [Conduct.next, shown]
  exact ends_checkStop world (fun session => readAgain_opening premises (locked.session session))
    fun session => locked.abort session

theorem readOnly_opening (opening : Opening given ended failed desk) :
    Ends readOnly desk (fun _ => Opening given ended failed) fun _ => Opening given ended failed := by
  unfold readOnly
  rw [ends_bind, ends_get, ends_ite]
  refine ⟨fun _ => ?_, fun _ => opening⟩
  rw [ends_bind, ends_get, ends_bind]
  refine onConnection_quiet (planned_quiet _) (fun session entries => ?_) fun session _ => opening.session session
  rw [ends_ite]
  refine ⟨fun _ => ?_, fun _ => opening.session session⟩
  rw [ends_change]
  have kept := (opening.session session).kept
  exact ⟨⟨kept.conducted, kept.shows, kept.ended, fun _ => Or.inr rfl, kept.released, fun _ => opening.idle,
    kept.leased, kept.finished⟩, opening.opened, opening.closed⟩

theorem connect_opening (opening : Opening given ended failed desk) :
    Ends (connect premises) desk (fun _ d => Opening given ended failed d ∧ d.backend = true)
      fun _ => Opening given ended failed := by
  unfold connect
  rw [ends_bind, ends_get, ends_ite]
  refine ⟨fun connected => ⟨opening, connected⟩, fun _ => ?_⟩
  rw [ends_bind]
  refine (readOnly_opening opening).imp (fun _ d opening => ?_) fun _ _ opening => opening
  rw [ends_bind, ends_question]
  cases premises.connects d.session.clock with
  | some cause => exact opening.session _
  | none =>
      dsimp only
      rw [ends_bind, ends_change, ends_did]
      have kept := (opening.session { d.session with clock := d.session.clock + 1 }).kept
      refine ⟨⟨kept.did rfl trivial ?_ kept.ended (fun concluded => ?_) kept.released kept.reader kept.leased
        kept.finished, opening.opened, opening.closed⟩, rfl⟩
      · simp [Conduct.next, shown]
      · refine (kept.failed concluded).imp_left fun spent => ?_
        simpa [Desk.spent, opening.opened] using spent

theorem prepare_opening (opening : Opening given ended failed desk) (free : desk.lock = false) :
    Ends (prepare world premises) desk
      (fun _ d => Kept given ended failed false d ∧ d.opened = true ∧ d.closed = false)
      fun _ => Opening given ended failed := by
  have connects (d : Desk) (opening : Opening given ended failed d) :
      Ends (do
          connect premises
          change fun desk => { desk with opened := true }
          did .opened : Operate Unit) d
        (fun _ d => Kept given ended failed false d ∧ d.opened = true ∧ d.closed = false)
        fun _ => Opening given ended failed := by
    rw [ends_bind]
    refine (connect_opening premises opening).imp (fun _ e connected => ?_) fun _ _ opening => opening
    obtain ⟨⟨kept, opened, closed⟩, connected⟩ := connected
    rw [ends_bind, ends_change, ends_did]
    refine ⟨kept.did rfl trivial ?_ kept.ended (fun concluded => ?_) kept.released kept.reader
      (fun lease => ⟨rfl, (kept.leased lease).2⟩) (fun _ => rfl), rfl, closed⟩
    · simp [Conduct.next, shown]
    · refine (kept.failed concluded).imp_left fun spent => ?_
      simpa [Desk.spent, opened, connected] using spent
  unfold prepare
  rw [ends_bind]
  refine ends_checkStop world (fun session => ?_) fun session => opening.abort session
  rw [ends_bind, ends_get, ends_bind]
  refine onConnection_quiet (planned_quiet _) (fun session _ => ?_) fun session _ => opening.session session
  rw [ends_bind, ends_get, ends_ite]
  refine ⟨fun _ => ?_, fun _ => connects _ (opening.session session)⟩
  rw [ends_bind]
  exact (lockDevice_opening world premises (opening.session session) free).imp
    (fun _ d opening => connects d opening) fun _ _ opening => opening

end Openings

/-! ### Calls -/

/-- What holds of an operation between its calls: its lock is held until it is left. -/
structure Sound (given : Bool) (desk : Desk) : Prop where
  kept : ∃ ended failed, Kept given ended failed (desk.lock && desk.closed) desk
  free : desk.opened = false → desk.closed = false → desk.lock = false

theorem After.sound {after : Desk} (known : After given ended failed (desk.lock && desk.closed) desk after)
    (sound : Sound given desk) : Sound given after := by
  refine ⟨⟨ended, failed, ?_⟩, fun opened closed => ?_⟩
  · rw [known.frame.lock, known.frame.closed]
    exact known.kept
  · rw [known.frame.lock]
    exact sound.free (known.frame.opened ▸ opened) (known.frame.closed ▸ closed)

theorem Gone.sound {before after : Desk} (gone : Gone given failed before after) : Sound given after := by
  obtain ⟨ended, kept⟩ := gone.kept
  refine ⟨⟨ended, failed, ?_⟩, fun _ closed => ?_⟩
  · rw [gone.closed, Bool.and_true]
    exact kept
  · rw [gone.closed] at closed
    cases closed

theorem Sound.entered (sound : Sound given desk) : Sound given { desk with entered := true } := by
  obtain ⟨⟨ended, failed, kept⟩, free⟩ := sound
  exact ⟨⟨ended, failed, kept.conducted, kept.shows, kept.ended, kept.failed, kept.released, kept.reader,
    kept.leased, kept.finished⟩, free⟩

section Calls

variable (world : World) (premises : Premises)

theorem close_sound (finishing : Bool) (sound : Sound given desk) :
    Ends (close premises finishing) desk (fun _ => Sound given) fun _ => Sound given := by
  cases closed : desk.closed with
  | true =>
      unfold close
      rw [ends_bind, ends_get, ends_ite]
      exact ⟨fun _ => sound, fun open' => absurd closed open'⟩
  | false =>
      obtain ⟨ended, failed, kept⟩ := sound.kept
      rw [closed, Bool.and_false] at kept
      exact (close_gone premises finishing kept closed).imp (fun _ _ gone => gone.sound) fun _ _ gone => gone.sound

theorem logging_sound (finishing : Bool) (sound : Sound given desk) :
    Ends (logging (close premises finishing)) desk (fun _ => Sound given) fun _ => Sound given := by
  unfold logging
  rw [ends_catch]
  refine (close_sound premises finishing sound).imp (fun _ _ sound => sound) fun mishap d sound => ?_
  rw [ends_ite]
  exact ⟨fun _ => sound, fun _ => sound⟩

theorem opens_sound (sound : Sound given desk) :
    Ends (opens world premises) desk (fun _ => Sound given) fun _ => Sound given := by
  unfold opens
  rw [ends_bind, ends_get, ends_ite]
  refine ⟨fun _ => sound, fun closed => ?_⟩
  rw [ends_bind, ends_get, ends_ite]
  refine ⟨fun _ => sound, fun opened => ?_⟩
  have closed : desk.closed = false := Bool.eq_false_iff.mpr closed
  have opened : desk.opened = false := Bool.eq_false_iff.mpr opened
  obtain ⟨ended, failed, kept⟩ := sound.kept
  rw [closed, Bool.and_false] at kept
  rw [ends_catch]
  refine (prepare_opening world premises ⟨kept, opened, closed⟩ (sound.free opened closed)).imp
    (fun _ d prepared => ?_) fun mishap d opening => ?_
  · obtain ⟨kept, opened, closed⟩ := prepared
    refine ⟨⟨ended, failed, ?_⟩, fun never => ?_⟩
    · rw [closed, Bool.and_false]
      exact kept
    · rw [opened] at never
      cases never
  · rw [ends_bind]
    unfold logging
    rw [ends_catch]
    refine (close_gone premises false opening.kept opening.closed).imp (fun _ _ gone => gone.sound)
      fun problem e gone => ?_
    rw [ends_ite]
    exact ⟨fun _ => gone.sound, fun _ => gone.sound⟩

/-- Every method keeps the operation sound, and works no more once it has failed. -/
theorem perform_sound (method : Method) (sound : Sound given desk) :
    Ends (perform world premises method) desk (fun _ => Sound given)
      fun mishap d => Sound given d ∧ (method.fails d.opened && mishap.isOs → Useless d) := by
  obtain ⟨ended, failed, kept⟩ := sound.kept
  cases method with
  | enter =>
      show Ends (enter world premises) desk _ _
      unfold enter
      rw [ends_bind, ends_get, ends_bind, ends_get, ends_ite]
      refine ⟨fun _ => ⟨sound, nofun⟩, fun _ => ?_⟩
      rw [ends_bind]
      exact (opens_sound world premises sound).imp (fun _ d sound => sound.entered) fun _ _ sound => ⟨sound, nofun⟩
  | leave raised =>
      show Ends (leave premises raised) desk _ _
      unfold leave
      rw [ends_ite]
      exact ⟨fun _ => (logging_sound premises false sound).imp (fun _ _ sound => sound) fun _ _ sound => ⟨sound, nofun⟩,
        fun _ => (close_sound premises true sound).imp (fun _ _ sound => sound) fun _ _ sound => ⟨sound, nofun⟩⟩
  | opens => exact (opens_sound world premises sound).imp (fun _ _ sound => sound) fun _ _ sound => ⟨sound, nofun⟩
  | apply intent =>
      show Ends (doing (apply world premises intent)) desk _ _
      unfold doing
      rw [ends_bind]
      refine (apply_kept world premises intent kept).imp (fun _ d known => known.sound sound) fun mishap d known => ?_
      refine ⟨known.1.sound sound, fun fails => ?_⟩
      obtain ⟨opened, os⟩ := Bool.and_eq_true_iff.mp fails
      exact known.2 os (known.1.frame.opened ▸ opened)
  | verify =>
      show Ends (doing (verify world premises)) desk _ _
      unfold doing
      rw [ends_bind]
      refine (verify_kept world premises kept).imp (fun _ d known => known.sound sound) fun mishap d known => ?_
      exact ⟨known.1.sound sound, fun fails => known.2 (Bool.and_eq_true_iff.mp fails).2⟩
  | repair =>
      show Ends (doing (repair world premises)) desk _ _
      unfold doing
      rw [ends_bind]
      refine (repair_kept world premises kept).imp (fun _ d known => known.sound sound) fun mishap d known => ?_
      exact ⟨known.1.sound sound, fun fails => known.2 (Bool.and_eq_true_iff.mp fails).2⟩
  | wait =>
      show Ends (doing (wait world)) desk _ _
      unfold doing
      rw [ends_bind]
      exact (wait_kept world kept).imp (fun _ d known => known.sound sound) fun _ _ known => ⟨known.sound sound, nofun⟩
  | finish =>
      refine (finish_kept premises kept).imp (fun _ d known => ?_) fun _ d known => ?_
      · obtain ⟨ended', known⟩ := known
        exact known.sound sound
      · obtain ⟨ended', known⟩ := known
        exact ⟨known.sound sound, nofun⟩
  | disconnect =>
      exact (disconnect_kept premises kept).imp (fun _ d known => known.1.sound sound)
        fun _ d known => ⟨known.1.sound sound, nofun⟩
  | close finishing =>
      exact (close_sound premises finishing sound).imp (fun _ _ sound => sound) fun _ _ sound => ⟨sound, nofun⟩

theorem call_sound (method : Method) (sound : Sound given desk) :
    Ends (call world premises method) desk (fun _ => Sound given) fun _ _ => False := by
  unfold call
  rw [ends_catch]
  refine (perform_sound world premises method sound).imp (fun _ _ sound => sound) fun mishap d known => ?_
  obtain ⟨⟨⟨ended, failed, kept⟩, free⟩, useless⟩ := known
  rw [ends_did]
  refine ⟨⟨ended, failed || method.fails d.opened && mishap.isOs, ?_⟩, free⟩
  refine kept.did rfl trivial rfl kept.ended (fun concluded => ?_) kept.released kept.reader kept.leased kept.finished
  rcases Bool.or_eq_true_iff.mp concluded with before | now
  · exact kept.failed before
  · exact useless now

theorem calls_sound (methods : List Method) (sound : Sound given desk) :
    Ends (calls world premises methods) desk (fun _ => Sound given) fun _ _ => False := by
  induction methods generalizing desk with
  | nil => exact sound
  | cons method rest ih =>
      unfold calls
      rw [ends_bind]
      exact (call_sound world premises method sound).imp (fun _ d sound => ih sound) fun _ _ never => never

end Calls

theorem operation_sound (config : Config) (backend reader resolved expected : Bool) :
    Sound backend (operation config backend reader resolved expected) := by
  refine ⟨⟨false, false, Traces.lawful_nil, rfl, nofun, nofun, nofun, fun _ => ⟨rfl, rfl⟩, nofun, nofun⟩,
    fun _ _ => rfl⟩

/-! ### A whole life -/

section Lives

variable (world : World) (premises : Premises)

/-- Where the conduct is over, no method works. -/
theorem Sound.useless (sound : Sound given desk) (concluded : (conduct given desk.deeds).concluded = true) :
    Useless desk := by
  obtain ⟨⟨ended, failed, kept⟩, -⟩ := sound
  rw [kept.shows, Conduct.concluded, shown, Bool.or_eq_true_iff, Bool.or_eq_true_iff] at concluded
  rcases concluded with (concluded | concluded) | concluded
  · left
    simp [spent, kept.ended concluded]
  · exact kept.failed concluded
  · left
    simp only [spent, show desk.closed = true from concluded, Bool.true_or]

theorem begin_refuses (useless : Useless desk) : Ends (begin world premises) desk (fun _ _ => False)
    fun _ d => d.deeds = desk.deeds := by
  unfold begin
  rw [ends_bind]
  refine ends_control world (fun session opened usable => ?_) (fun _ => rfl) fun _ => rfl
  rw [ends_bind, ends_get, ends_ite]
  refine ⟨fun _ => rfl, fun writer => ?_⟩
  rcases useless with spent | reader
  · rw [usable] at spent
    cases spent
  · exact absurd reader writer

theorem noteFailure_deeds {α : Type} (mishap : Mishap) (step : Desk → Desk)
    (same : (step desk).deeds = desk.deeds) :
    Ends (do
        if mishap.isOs && !(← get).reader then change step
        throw mishap : Operate α) desk (fun _ _ => False) fun _ d => d.deeds = desk.deeds := by
  rw [ends_bind, ends_get, ends_ite]
  exact ⟨fun _ => same, fun _ => rfl⟩

theorem perform_refuses {method : Method} (works : method.fails true = true) (useless : Useless desk) :
    Ends (perform world premises method) desk (fun _ _ => False) fun _ d => d.deeds = desk.deeds := by
  have later (session : Session) : Useless { desk with session := session } := useless
  cases method with
  | apply intent =>
      show Ends (doing (apply world premises intent)) desk _ _
      unfold doing apply
      rw [ends_bind, ends_bind]
      exact (begin_refuses world premises useless).imp (fun _ _ never => never.elim) fun _ _ same => same
  | verify =>
      show Ends (doing (verify world premises)) desk _ _
      unfold doing verify
      rw [ends_bind, ends_catch, ends_bind, ends_get, ends_bind]
      refine onConnection_quiet (planned_quiet _) (fun session registers => ?_) fun session problem => ?_
      · rw [ends_bind]
        refine (begin_refuses world premises (later session)).imp (fun _ _ never => never.elim) fun mishap d same => ?_
        exact (noteFailure_deeds mishap _ rfl).imp (fun _ _ never => never.elim) fun _ _ same' => same'.trans same
      · exact (noteFailure_deeds (.raised problem) _ rfl).imp (fun _ _ never => never.elim) fun _ _ same => same
  | repair =>
      show Ends (doing (repair world premises)) desk _ _
      unfold doing repair
      rw [ends_bind, ends_catch, ends_bind, ends_get, ends_bind]
      refine (begin_refuses world premises useless).imp (fun _ _ never => never.elim) fun mishap d same => ?_
      exact (noteFailure_deeds mishap _ rfl).imp (fun _ _ never => never.elim) fun _ _ same' => same'.trans same
  | enter => cases works
  | leave raised => cases works
  | opens => cases works
  | wait => cases works
  | finish => cases works
  | disconnect => cases works
  | close finishing => cases works

/-- **The life of an operation.** Whatever is called in whatever order and whatever fails, everything it
does is allowed; an operation that was left holds no lock; and one that has finished, failed or been left, by
its deeds or by its flags, refuses to apply, verify and repair, and does nothing for it. -/
theorem lifecycle (config : Config) (backend reader resolved expected : Bool) (methods : List Method) :
    let desk := (calls world premises methods (operation config backend reader resolved expected)).2
    Conducted backend desk.deeds
      ∧ ((conduct backend desk.deeds).left = true → (conduct backend desk.deeds).held = false)
      ∧ ((conduct backend desk.deeds).concluded = true ∨ desk.spent = true → ∀ method, method.fails true = true →
          ∃ mishap after, perform world premises method desk = (.error mishap, after)
            ∧ after.deeds = desk.deeds) := by
  have ends := calls_sound world premises methods (operation_sound config backend reader resolved expected)
  intro desk
  have sound : Sound backend desk := by
    rcases result : calls world premises methods (operation config backend reader resolved expected)
      with ⟨mishap | value, after⟩
    · exact (ends.raised result).elim
    · show Sound backend (calls world premises methods _).2
      rw [result]
      exact ends.returned result
  refine ⟨sound.kept.elim fun _ known => known.elim fun _ kept => kept.conducted, fun left => ?_,
    fun concluded method works => ?_⟩
  · obtain ⟨⟨ended, failed, kept⟩, -⟩ := sound
    rw [kept.shows] at left ⊢
    have closed : desk.closed = true := left
    simp [shown, closed]
  · have refuses := perform_refuses world premises works (concluded.elim sound.useless Or.inl)
    rcases result : perform world premises method desk with ⟨mishap | value, after⟩
    · exact ⟨mishap, after, rfl, refuses.raised result⟩
    · exact (refuses.returned result).elim

end Lives

/-! ### An apply before the operation is open -/

/-- A machine that answers everything. -/
def obliging : World where
  stop _ := false
  exchange _ := .done
  grant _ := .granted
  deliveries _ := []
  playback _ := none

def granting : Premises where
  target _ := .ok "0"
  locks _ := true
  connects _ := none
  begins _ := none
  ends _ := .acknowledged
  closes _ := none
  reread := none

/-- A desk that pins one volume. -/
def declaring : Config where
  channels := [⟨.output, 1, .flat "volume", .real (-12)⟩]

/-- An apply that raised an `OSError` before the operation was open is followed by a write. -/
theorem applied_unopened :
    ¬ ∀ (world : World) (premises : Premises) (config : Config) (methods : List Method)
        (before after : List Deed) (intent : ApplyIntent) (mishap : Mishap) (message : Message) (fate : Fate),
      (calls world premises methods (operation config false false false false)).2.deeds
          = before ++ .raised (.apply intent) mishap :: after → mishap.isOs = true →
        .on (.write message fate) ∉ after := by
  intro never
  have run : (calls obliging granting [.apply .explicit, .enter, .apply .explicit, .leave false]
      (operation declaring false false false false)).2.deeds
      = [] ++ .raised (.apply .explicit) .unusable :: [.locked, .connected, .opened, .begun,
        .on (.write ⟨.volume 1, "f", [.real (-12)]⟩ .done), .handed [⟨.volume 1, "f", [.real (-12)]⟩], .left, .ended,
        .disconnected, .handed [], .unlocked] := by decide +kernel
  exact never _ _ _ _ _ _ _ _ ⟨.volume 1, "f", [.real (-12)]⟩ .done run rfl (by simp)

end Desk

end OscmixDesk
