/-
**The writers of a device take turns.**

Switches, restores, starts and reconciles of one device run side by side; any of their calls may fail, and any of them
may die (`serialised`). What each of them did to the device stands in one piece between what the others did. A marker
changes behind every write of its desk, in the same piece; and a start or a reconcile writes of the desk it read in
its piece, for the marker as it is from before its first write until behind its last one, so neither undoes a switch
that was committed. A start that could not read a desk writes of the one it began with.
-/

import OscmixDesk.Model.Locking

namespace OscmixDesk.Locking

open Concurrent

/-! ### Pieces -/

/-- Every write of a desk, with the volumes of a peak-safe selection around them. -/
def Job.plan (desk : List Message) (job : Job) : List Message :=
  match job.quiet with
  | none => desk
  | some volumes => volumes.down ++ desk ++ volumes.back

theorem Job.plan_plain {job : Job} (plain : job.quiet = none) (desk : List Message) : job.plan desk = desk := by
  unfold Job.plan
  rw [plain]

theorem Job.plan_quiet {job : Job} {volumes : Quiet} (quiet : job.quiet = some volumes) (desk : List Message) :
    job.plan desk = volumes.down ++ desk ++ volumes.back := by
  unfold Job.plan
  rw [quiet]

/-- What an operation may have written of its desk: up to some write; a peak-safe selection gives volumes back from
wherever it came to, and a start repairs behind it. -/
def Job.Sends (desk : List Message) (sent : List Message) : Job → Prop
  | select _ _ _ none => sent <+: desk
  | select _ _ _ (some volumes) => sent <+: volumes.down ++ desk
      ∨ ∃ own back, sent = volumes.down ++ own ++ back ∧ own <+: desk ∧ back <+: volumes.back
  | reconcile _ => sent <+: desk
  | start _ _ => ∃ own again, sent = own ++ again ∧ own <+: desk ∧ ∀ message ∈ again, message ∈ desk

/-- What an operation may have done, by the markers it found: a start and a reconcile write of the desk they read for
the marker, and a start that read none of the one it began with. -/
def Job.Block (job : Job) (held : String → Option String) (own : List Event) : Prop :=
  match job with
  | .select config name desk _ => (∃ sent, own = sent.map .wrote ∧ job.Sends desk sent)
      ∨ own = (job.plan desk).map .wrote ++ [.marked config name]
  | .reconcile config => own = [] ∨ ∃ fresh sent, own = .reread config (held config) fresh :: sent.map .wrote
      ∧ job.Sends (fresh.getD []) sent
  | .start config running => own = [] ∨ ∃ fresh sent, own = .reread config (held config) fresh :: sent.map .wrote
      ∧ job.Sends (fresh.getD running) sent

theorem Job.sends_nil (job : Job) (desk : List Message) : job.Sends desk [] := by
  cases job with
  | select config name chosen quiet =>
      cases quiet with
      | none => exact List.nil_prefix
      | some volumes => exact Or.inl List.nil_prefix
  | reconcile config => exact List.nil_prefix
  | start config running => exact ⟨[], [], rfl, List.nil_prefix, nofun⟩

theorem Job.block_nil (job : Job) (held : String → Option String) : job.Block held [] := by
  cases job with
  | select config name desk quiet => exact Or.inl ⟨[], rfl, Job.sends_nil _ desk⟩
  | reconcile config => exact Or.inl rfl
  | start config running => exact Or.inl rfl

/-- The message an event wrote. -/
def Event.message : Event → Option Message
  | wrote message => some message
  | _ => none

def Event.isMark : Event → Bool
  | marked _ _ => true
  | _ => false

/-- The messages that were written. -/
def written (own : List Event) : List Message :=
  own.filterMap Event.message

@[simp] theorem written_map (messages : List Message) : written (messages.map .wrote) = messages := by
  unfold written
  rw [List.filterMap_map]
  exact List.filterMap_some

/-- Writes behind writes. -/
theorem wrote_append (own : List Event) (arrived sent : List Message) :
    own ++ arrived.map .wrote ++ sent.map .wrote = own ++ (arrived ++ sent).map .wrote := by
  rw [List.map_append, List.append_assoc]

/-- The marker stays. -/
def Unmarked (own : List Event) : Prop :=
  ∀ event ∈ own, event.isMark = false

theorem unmarked_map (messages : List Message) : Unmarked (messages.map .wrote) := by
  intro event member
  obtain ⟨message, -, rfl⟩ := List.mem_map.mp member
  rfl

theorem Unmarked.append {own more : List Event} (unmarked : Unmarked own) (still : Unmarked more) :
    Unmarked (own ++ more) := by
  intro event member
  rcases List.mem_append.mp member with old | new
  · exact unmarked event old
  · exact still event new

/-- What a burst that gave out says of the messages: those it names as sent, the last of which may not have arrived,
and those that are pending. -/
def GaveOut (messages arrived sent pending : List Message) : Prop :=
  messages = sent ++ pending ∧ (arrived = sent ∨ ∃ lost, sent = arrived ++ [lost])

theorem GaveOut.arrived_prefix {messages arrived sent pending : List Message}
    (gave : GaveOut messages arrived sent pending) : arrived <+: messages := by
  obtain ⟨rfl, rfl | ⟨lost, rfl⟩⟩ := gave
  · exact List.prefix_append _ _
  · rw [List.append_assoc]
    exact List.prefix_append _ _

/-- What an operation did before its first write: a start and a reconcile read the desk of the marker. -/
def Job.Opened (job : Job) (held : String → Option String) (own : List Event) (desk : List Message) : Prop :=
  match job with
  | .select _ _ chosen _ => own = [] ∧ desk = chosen
  | .reconcile config => own = [.reread config (held config) (some desk)]
  | .start config running => ∃ fresh, own = [.reread config (held config) fresh] ∧ desk = fresh.getD running

/-- What an outcome says of the piece of its operation. One that was refused wrote nothing and one in part names what
was sent and what is pending, unless it was peak-safe; one that was applied wrote everything. -/
def Job.Reports (job : Job) (held : String → Option String) (own : List Event) : Outcome → Prop
  | .refused => Unmarked own ∧ (job.quiet = none → written own = [])
  | .inPart sent pending => Unmarked own ∧ (job.quiet = none → sent ≠ [] ∧ ∃ opened desk,
      job.Opened held opened desk ∧ own = opened ++ (written own).map .wrote
        ∧ GaveOut desk (written own) sent pending)
  | .applied persisted => ∃ opened desk, job.Opened held opened desk
      ∧ match job with
        | .select config name _ _ => own = (job.plan desk).map .wrote ++ [.marked config name]
            ∨ persisted = false ∧ own = (job.plan desk).map .wrote
        | .reconcile _ => own = opened ++ desk.map .wrote
        | .start _ _ => ∃ again, own = opened ++ (desk ++ again).map .wrote ∧ ∀ message ∈ again, message ∈ desk

section Opened

variable {job : Job} {held : String → Option String} {own : List Event} {desk : List Message}

/-- Some of the writes behind it are a piece of the operation. -/
theorem Job.Opened.block (opened : job.Opened held own desk) {sent : List Message} (sends : job.Sends desk sent) :
    job.Block held (own ++ sent.map .wrote) := by
  cases job with
  | select config name chosen quiet =>
      obtain ⟨rfl, rfl⟩ := opened
      exact Or.inl ⟨sent, rfl, sends⟩
  | reconcile config =>
      obtain rfl : own = _ := opened
      exact Or.inr ⟨some desk, sent, rfl, sends⟩
  | start config running =>
      obtain ⟨fresh, rfl, rfl⟩ := opened
      exact Or.inr ⟨fresh, sent, rfl, sends⟩

/-- Nothing was written before the first write. -/
theorem Job.Opened.still (opened : job.Opened held own desk) : written own = [] ∧ Unmarked own := by
  cases job with
  | select config name chosen quiet =>
      obtain ⟨rfl, rfl⟩ := opened
      exact ⟨rfl, nofun⟩
  | reconcile config =>
      obtain rfl : own = _ := opened
      exact ⟨rfl, fun event member => by rw [List.mem_singleton.mp member]; rfl⟩
  | start config running =>
      obtain ⟨fresh, rfl, rfl⟩ := opened
      exact ⟨rfl, fun event member => by rw [List.mem_singleton.mp member]; rfl⟩

theorem Job.Opened.written_append (opened : job.Opened held own desk) (sent : List Message) :
    written (own ++ sent.map .wrote) = sent := by
  have both : written (own ++ sent.map .wrote) = written own ++ written (sent.map .wrote) := List.filterMap_append
  rw [both, opened.still.1, written_map, List.nil_append]

/-- A part of a desk that is not written peak-safely. -/
theorem Job.sends_prefix (plain : job.quiet = none) {sent : List Message} (part : sent <+: desk) :
    job.Sends desk sent := by
  cases job with
  | select config name chosen quiet =>
      obtain rfl : quiet = none := plain
      exact part
  | reconcile config => exact part
  | start config running => exact ⟨sent, [], (List.append_nil _).symm, part, nofun⟩

end Opened

section Rules

variable {ι : Type} {isDir : String → Bool} {key : String} {first : String → Option String} {job : ι → Job}
  {lock : LockFile} {i j : ι} {now after : Floor ι} {before : List (ι × Event)} {own : List Event}

/-- What a process did stands in one piece. -/
structure Piece (first : String → Option String) (job : ι → Job) (i : ι) (before : List (ι × Event))
    (own : List Event) (later log : List (ι × Event)) : Prop where
  whole : log = before ++ own.map (Prod.mk i) ++ later
  early : ∀ event ∈ before, event.1 ≠ i
  late : ∀ event ∈ later, event.1 ≠ i
  block : (job i).Block (markers first before) own

theorem Piece.more {later log extra : List (ι × Event)} (piece : Piece first job i before own later log)
    (apart : ∀ event ∈ extra, event.1 ≠ i) : Piece first job i before own (later ++ extra) (log ++ extra) := by
  refine ⟨by rw [piece.whole, List.append_assoc], piece.early, fun event member => ?_, piece.block⟩
  rcases List.mem_append.mp member with old | new
  · exact piece.late event old
  · exact apart event new

/-- The log, piece by piece. -/
def Valid (first : String → Option String) (job : ι → Job) (now : Floor ι) : Prop :=
  ∀ i, ∃ before own later, Piece first job i before own later now.log

/-- What a process sees the others do: they do nothing while it holds the lock, and what they do is their own. -/
structure Others (lock : LockFile) (i : ι) (now after : Floor ι) : Prop where
  holder : after.holder lock = some i ↔ now.holder lock = some i
  log : ∃ extra, after.log = now.log ++ extra ∧ (∀ event ∈ extra, event.1 ≠ i)
    ∧ (now.holder lock = some i → extra = [])

theorem Others.refl (lock : LockFile) (i : ι) (now : Floor ι) : Others lock i now now :=
  ⟨Iff.rfl, [], (List.append_nil _).symm, fun _ impossible => absurd impossible List.not_mem_nil, fun _ => rfl⟩

theorem Others.trans {middle : Floor ι} (early : Others lock i now middle) (late : Others lock i middle after) :
    Others lock i now after := by
  obtain ⟨extra, log, apart, nothing⟩ := early.log
  obtain ⟨extra', log', apart', nothing'⟩ := late.log
  refine ⟨late.holder.trans early.holder, extra ++ extra', by rw [log', log, List.append_assoc], ?_, fun held => ?_⟩
  · intro event member
    rcases List.mem_append.mp member with old | new
    · exact apart event old
    · exact apart' event new
  · rw [nothing held, nothing' (early.holder.mpr held), List.append_nil]

/-- A process that has done nothing, and does not hold the lock. -/
def Outside (lock : LockFile) (i : ι) (now : Floor ι) : Prop :=
  now.holder lock ≠ some i ∧ ∀ event ∈ now.log, event.1 ≠ i

theorem Outside.mono (outside : Outside lock i now) (passed : Others lock i now after) : Outside lock i after := by
  obtain ⟨extra, log, apart, -⟩ := passed.log
  refine ⟨fun held => outside.1 (passed.holder.mp held), fun event member => ?_⟩
  rw [log] at member
  rcases List.mem_append.mp member with old | new
  · exact outside.2 event old
  · exact apart event new

/-- The rules of the writers. -/
def rules (lock : LockFile) (first : String → Option String) (job : ι → Job) : Concurrent.Rules ι (Floor ι) where
  valid := Valid first job
  idle := Outside lock
  others := Others lock
  still passed outside := Outside.mono outside passed
  refl := Others.refl lock
  trans := Others.trans

/-- A process inside the lock: nobody did anything since its first event. -/
structure Inside (lock : LockFile) (first : String → Option String) (job : ι → Job) (i : ι)
    (before : List (ι × Event)) (own : List Event) (now : Floor ι) : Prop where
  holds : now.holder lock = some i
  piece : Piece first job i before own [] now.log

theorem Inside.mono (inside : Inside lock first job i before own now) (passed : Others lock i now after) :
    Inside lock first job i before own after := by
  obtain ⟨extra, log, -, nothing⟩ := passed.log
  rw [nothing inside.holds, List.append_nil] at log
  exact ⟨passed.holder.mpr inside.holds, log ▸ inside.piece⟩

/-- One more event of the process inside the lock. -/
theorem Inside.add {event : Event} (valid : Valid first job now) (inside : Inside lock first job i before own now)
    (block : (job i).Block (markers first before) (own ++ [event])) :
    (Valid first job (now.add i event) ∧ ∀ j, j ≠ i → Others lock j now (now.add i event))
      ∧ Inside lock first job i before (own ++ [event]) (now.add i event) := by
  have piece : Piece first job i before (own ++ [event]) [] (now.add i event).log := by
    refine ⟨?_, inside.piece.early, inside.piece.late, block⟩
    show now.log ++ [(i, event)] = _
    rw [inside.piece.whole]
    simp
  refine ⟨⟨fun j => ?_, fun j other => ⟨Iff.rfl, [(i, event)], rfl, ?_, fun held => ?_⟩⟩, inside.holds, piece⟩
  · by_cases same : j = i
    · subst same
      exact ⟨before, _, [], piece⟩
    · obtain ⟨before, own, later, piece⟩ := valid j
      refine ⟨before, own, later ++ [(i, event)], piece.more fun other member => ?_⟩
      rw [List.mem_singleton.mp member]
      exact Ne.symm same
  · intro added member
    rw [List.mem_singleton.mp member]
    exact Ne.symm other
  · exact absurd (Option.some.inj (held.symm.trans inside.holds)) other

/-- The desk is read behind everything that was done before the process took the lock. -/
theorem Inside.reread {config : String} {fresh : Option (List Message)} (valid : Valid first job now)
    (inside : Inside lock first job i before [] now)
    (block : (job i).Block (markers first before) [.reread config (markers first before config) fresh]) :
    (Valid first job (now.add i (.reread config (markers first now.log config) fresh))
      ∧ ∀ j, j ≠ i → Others lock j now (now.add i (.reread config (markers first now.log config) fresh)))
      ∧ Inside lock first job i before [.reread config (markers first before config) fresh]
        (now.add i (.reread config (markers first now.log config) fresh)) := by
  have same : now.log = before := by simpa using inside.piece.whole
  rw [same]
  exact inside.add valid block

theorem Valid.still (log : after.log = now.log) (valid : Valid first job now) :
    Valid first job after := by
  intro i
  rw [log]
  exact valid i

/-- A process that gave the lock back, or never had it: its piece is what its outcome says. -/
def Finished (first : String → Option String) (job : ι → Job) (i : ι) (outcome : Outcome) (now : Floor ι) : Prop :=
  ∃ before own later, Piece first job i before own later now.log
    ∧ (job i).Reports (markers first before) own outcome

theorem Finished.mono {outcome : Outcome} (finished : Finished first job i outcome now)
    (passed : Others lock i now after) : Finished first job i outcome after := by
  obtain ⟨before, own, later, piece, reports⟩ := finished
  obtain ⟨extra, log, apart, -⟩ := passed.log
  exact ⟨before, own, later ++ extra, log ▸ piece.more apart, reports⟩

/-- A process that has not got the lock did nothing. -/
theorem Outside.finished (outside : Outside lock i now) : Finished first job i .refused now := by
  exact ⟨now.log, [], [], ⟨by simp, outside.2, nofun, (job i).block_nil _⟩, nofun, fun _ => rfl⟩

/-! ### What the writers do -/

/-- A script that is safe among the writers. -/
abbrev Safely [DecidableEq ι] (lock : LockFile) (first : String → Option String) (job : ι → Job) (i : ι) {α : Type}
    (post : α → Floor ι → Prop) (script : Script α) (now : Floor ι) : Prop :=
  Concurrent.Safe (rules lock first job) (Law first i) i post script now

theorem others_refl (lock : LockFile) (i : ι) (now : Floor ι) : ∀ j, j ≠ i → Others lock j now now :=
  fun j _ => Others.refl lock j now

section Scripts

variable [DecidableEq ι]

/-- Where a burst behind a piece ends. -/
def Burnt (lock : LockFile) (first : String → Option String) (job : ι → Job) (i : ι) (before : List (ι × Event))
    (own : List Event) (messages : List Message) (burst : Burst) (now : Floor ι) : Prop :=
  match burst with
  | .complete => Inside lock first job i before (own ++ messages.map .wrote) now
  | .gaveOut sent pending => ∃ arrived, Inside lock first job i before (own ++ arrived.map .wrote) now
      ∧ GaveOut messages arrived sent pending

theorem sendFrom_safely {messages : List Message} (behind : List Message)
    (inside : Inside lock first job i before (own ++ behind.map .wrote) now)
    (block : ∀ sent, sent <+: behind ++ messages → (job i).Block (markers first before) (own ++ sent.map .wrote)) :
    Safely lock first job i (Burnt lock first job i before own (behind ++ messages)) (sendFrom behind messages)
      now := by
  induction messages generalizing behind now with
  | nil =>
      refine .done fun now _ passed => ?_
      rw [List.append_nil]
      exact inside.mono passed
  | cons message rest ih =>
      have more : behind ++ message :: rest = behind ++ [message] ++ rest := by simp
      have arrives : own ++ (behind ++ [message]).map Event.wrote = own ++ behind.map .wrote ++ [.wrote message] := by
        simp
      have one := block (behind ++ [message]) (more ▸ List.prefix_append _ _)
      rw [arrives] at one
      refine .ask fun now given after valid passed done => ?_
      replace inside := inside.mono passed
      cases done with
      | sent =>
          obtain ⟨kept, inside⟩ := inside.add valid one
          rw [more] at block ⊢
          exact ⟨kept, ih (behind ++ [message]) (arrives ▸ inside) block⟩
      | notSent =>
          exact ⟨⟨valid, others_refl lock i now⟩, .done fun now _ passed =>
            ⟨behind, inside.mono passed, rfl, Or.inl rfl⟩⟩
      | lost =>
          exact ⟨⟨valid, others_refl lock i now⟩, .done fun now _ passed =>
            ⟨behind, inside.mono passed, more, Or.inr ⟨message, rfl⟩⟩⟩
      | lostBehind =>
          obtain ⟨kept, inside⟩ := inside.add valid one
          exact ⟨kept, .done fun now _ passed =>
            ⟨behind ++ [message], arrives ▸ inside.mono passed, more, Or.inl rfl⟩⟩

theorem sendAll_safely {messages : List Message} (inside : Inside lock first job i before own now)
    (block : ∀ sent, sent <+: messages → (job i).Block (markers first before) (own ++ sent.map .wrote)) :
    Safely lock first job i (Burnt lock first job i before own messages) (sendAll messages) now :=
  sendFrom_safely [] (by simpa using inside) block

/-- A process inside the lock whose piece is what its outcome says. -/
def Ended (lock : LockFile) (first : String → Option String) (job : ι → Job) (i : ι) (before : List (ι × Event))
    (outcome : Outcome) (now : Floor ι) : Prop :=
  ∃ own, Inside lock first job i before own now ∧ (job i).Reports (markers first before) own outcome

theorem ended_safely {outcome : Outcome} (inside : Inside lock first job i before own now)
    (reports : (job i).Reports (markers first before) own outcome) :
    Safely lock first job i (Ended lock first job i before) (.done outcome) now :=
  .done fun _ _ passed => ⟨own, inside.mono passed, reports⟩

/-- The calls that leave the world as it is. -/
def Request.asks : Request → Bool
  | .directory _ | .openLock _ | .stopping | .close | .connect | .repairs | .finish => true
  | .flock _ | .release _ | .reread _ | .send _ | .mark _ _ => false

theorem Law.still {request : Request} {given : Answer request} (asks : request.asks = true)
    (done : Law first i request now given after) : after = now := by
  cases done <;> first | rfl | cases asks

theorem ask_safely {request : Request} {α : Type} {next : Answer request → Script α} {post : α → Floor ι → Prop}
    (asks : request.asks = true)
    (inside : Inside lock first job i before own now)
    (each : ∀ given now, Valid first job now → Inside lock first job i before own now →
      Safely lock first job i post (next given) now) : Safely lock first job i post (.call request next) now := by
  refine .ask fun now given after valid passed done => ?_
  obtain rfl := done.still asks
  exact ⟨⟨valid, others_refl lock i after⟩, each given after valid (inside.mono passed)⟩

theorem desk_safely (inside : Inside lock first job i before [] now) :
    Safely lock first job i (fun desk now => ∃ own, Inside lock first job i before own now
      ∧ match desk with
        | none => written own = [] ∧ Unmarked own
        | some desk => (job i).Opened (markers first before) own desk) (job i).desk now := by
  cases shape : job i with
  | select config name desk quiet => exact .done fun now _ passed => ⟨[], inside.mono passed, rfl, rfl⟩
  | reconcile config =>
      refine .ask fun now desk after valid passed done => ?_
      obtain ⟨desk⟩ := done
      have block : (job i).Block (markers first before) [.reread config (markers first before config) desk] := by
        rw [shape]
        exact Or.inr ⟨desk, [], rfl, Job.sends_nil _ _⟩
      obtain ⟨kept, inside⟩ := (inside.mono passed).reread valid block
      refine ⟨kept, .done fun now _ passed => ⟨_, inside.mono passed, ?_⟩⟩
      cases desk with
      | none => exact ⟨rfl, fun event member => by rw [List.mem_singleton.mp member]; rfl⟩
      | some desk => exact rfl
  | start config running =>
      refine .ask fun now desk after valid passed done => ?_
      obtain ⟨desk⟩ := done
      have block : (job i).Block (markers first before) [.reread config (markers first before config) desk] := by
        rw [shape]
        exact Or.inr ⟨desk, [], rfl, Job.sends_nil _ _⟩
      obtain ⟨kept, inside⟩ := (inside.mono passed).reread valid block
      exact ⟨kept, .done fun now _ passed => ⟨_, inside.mono passed, desk, rfl, rfl⟩⟩

/-- Where the writes of a desk end: all of them are done, with the volumes around them, or some. -/
def Delivered (lock : LockFile) (first : String → Option String) (job : ι → Job) (i : ι) (before : List (ι × Event))
    (own : List Event) (desk : List Message) (burst : Burst) (now : Floor ι) : Prop :=
  match burst with
  | .complete => Inside lock first job i before (own ++ ((job i).plan desk).map .wrote) now
  | .gaveOut sent pending => ∃ arrived, Inside lock first job i before (own ++ arrived.map .wrote) now
      ∧ ((job i).quiet = none → GaveOut desk arrived sent pending)

/-- A peak-safe selection: what it sends up to a write of its desk, and what it gives back from there. -/
theorem quiet_sends {volumes : Quiet} {chosen : Job} (quiet : chosen.quiet = some volumes) {desk : List Message} :
    (∀ sent, sent <+: volumes.down ++ desk → chosen.Sends desk sent)
      ∧ ∀ own back, own <+: desk → back <+: volumes.back → chosen.Sends desk (volumes.down ++ own ++ back) := by
  cases chosen with
  | select config name chosen quiet' =>
      obtain rfl : quiet' = some volumes := quiet
      exact ⟨fun sent part => Or.inl part, fun own back part given => Or.inr ⟨own, back, rfl, part, given⟩⟩
  | reconcile config => cases quiet
  | start config running => cases quiet

theorem sendQuietly_safely {desk : List Message} (opened : (job i).Opened (markers first before) own desk)
    (valid : Valid first job now) (inside : Inside lock first job i before own now) :
    Safely lock first job i (Delivered lock first job i before own desk) (sendQuietly (job i).quiet desk) now := by
  cases quiet : (job i).quiet with
  | none =>
      refine (sendAll_safely inside fun sent part => opened.block (Job.sends_prefix quiet part)).imp
        fun burst now _ burnt => ?_
      cases burst with
      | complete =>
          show Inside lock first job i before (own ++ ((job i).plan desk).map .wrote) now
          rw [Job.plan_plain quiet]
          exact burnt
      | gaveOut sent pending =>
          obtain ⟨arrived, inside, gave⟩ := burnt
          exact ⟨arrived, inside, fun _ => gave⟩
  | some volumes =>
      obtain ⟨upTo, back⟩ := @quiet_sends volumes (job i) quiet desk
      have loud {sent pending arrived : List Message} : (job i).quiet = none → GaveOut desk arrived sent pending :=
        fun plain => absurd (quiet.symm.trans plain) nofun
      -- the volumes come down
      refine (sendAll_safely inside fun sent part =>
        opened.block (upTo sent (part.trans (List.prefix_append _ _)))).bind valid fun burst now valid burnt => ?_
      cases burst with
      | gaveOut sent pending =>
          obtain ⟨arrived, inside, -⟩ := burnt
          exact .done fun now _ passed => ⟨arrived, inside.mono passed, loud⟩
      | complete =>
          replace inside : Inside lock first job i before (own ++ volumes.down.map .wrote) now := burnt
          -- the desk
          refine (sendAll_safely inside fun sent part => ?_).bind valid fun burst now valid burnt => ?_
          · rw [wrote_append]
            exact opened.block (upTo _ ((List.prefix_append_right_inj _).mpr part))
          -- the volumes go back, from wherever the desk came to
          have restored {arrived : List Message} {now : Floor ι} (part : arrived <+: desk)
              (inside : Inside lock first job i before (own ++ (volumes.down ++ arrived).map .wrote) now) :
              Safely lock first job i (Burnt lock first job i before (own ++ (volumes.down ++ arrived).map .wrote)
                volumes.back) (sendAll volumes.back) now :=
            sendAll_safely inside fun sent given => by
              rw [wrote_append]
              exact opened.block (back arrived sent part given)
          cases burst with
          | gaveOut sent pending =>
              obtain ⟨arrived, inside, gave⟩ := burnt
              rw [wrote_append] at inside
              refine (restored gave.arrived_prefix inside).bind valid fun burst now _ burnt => ?_
              cases burst with
              | complete =>
                  replace burnt : Inside lock first job i before _ now := burnt
                  rw [wrote_append] at burnt
                  exact .done fun now _ passed => ⟨_, burnt.mono passed, loud⟩
              | gaveOut sent' pending' =>
                  obtain ⟨arrived', inside, -⟩ := burnt
                  rw [wrote_append] at inside
                  exact .done fun now _ passed => ⟨_, inside.mono passed, loud⟩
          | complete =>
              replace inside : Inside lock first job i before _ now := burnt
              rw [wrote_append] at inside
              refine (restored List.prefix_rfl inside).imp fun burst now _ burnt => ?_
              cases burst with
              | complete =>
                  show Inside lock first job i before (own ++ ((job i).plan desk).map .wrote) now
                  rw [Job.plan_quiet quiet, ← wrote_append]
                  exact burnt
              | gaveOut sent pending =>
                  obtain ⟨arrived, inside, -⟩ := burnt
                  rw [wrote_append] at inside
                  exact ⟨_, inside, loud⟩

theorem conclude_safely {desk : List Message} (opened : (job i).Opened (markers first before) own desk)
    (inside : Inside lock first job i before (own ++ ((job i).plan desk).map .wrote) now) :
    Safely lock first job i (Ended lock first job i before) ((job i).conclude desk) now := by
  cases shape : job i with
  | select config name chosen quiet =>
      rw [shape] at opened inside
      obtain ⟨rfl, rfl⟩ := opened
      rw [List.nil_append] at inside
      have partly : (job i).Reports (markers first before)
          (((Job.select config name desk quiet).plan desk).map .wrote) (.applied false) := by
        rw [shape]
        exact ⟨[], desk, ⟨rfl, rfl⟩, Or.inr ⟨rfl, rfl⟩⟩
      have wholly (persisted : Bool) : (job i).Reports (markers first before)
          (((Job.select config name desk quiet).plan desk).map .wrote ++ [.marked config name])
          (.applied persisted) := by
        rw [shape]
        exact ⟨[], desk, ⟨rfl, rfl⟩, Or.inl rfl⟩
      refine ask_safely rfl inside fun ended now _ inside => ?_
      cases ended with
      | false => exact ended_safely inside partly
      | true =>
          refine .ask fun now change after valid passed done => ?_
          replace inside := inside.mono passed
          have block : (job i).Block (markers first before)
              (((Job.select config name desk quiet).plan desk).map .wrote ++ [.marked config name]) := by
            rw [shape]
            exact Or.inr rfl
          cases done with
          | unmarked => exact ⟨⟨valid, others_refl lock i now⟩, ended_safely inside partly⟩
          | marked =>
              obtain ⟨kept, inside⟩ := inside.add valid block
              exact ⟨kept, ended_safely inside (wholly true)⟩
          | raised =>
              obtain ⟨kept, inside⟩ := inside.add valid block
              exact ⟨kept, ended_safely inside (wholly false)⟩
  | reconcile config =>
      have reports : (job i).Reports (markers first before) (own ++ ((job i).plan desk).map .wrote)
          (.applied false) := by
        rw [shape] at opened ⊢
        exact ⟨own, desk, opened, rfl⟩
      exact ask_safely rfl inside fun ended now _ inside =>
        ended_safely inside reports
  | start config running =>
      refine ask_safely rfl inside fun repairs now valid inside => ?_
      have among : ∀ sent, sent <+: desk.filter (repairs.getD fun _ => false) → ∀ message ∈ sent, message ∈ desk :=
        fun sent part message member => (List.mem_filter.mp (part.subset member)).1
      have moved (sent : List Message) : own ++ ((job i).plan desk).map Event.wrote ++ sent.map .wrote
          = own ++ (desk ++ sent).map .wrote := by
        rw [Job.plan_plain (congrArg Job.quiet shape), wrote_append]
      have repaired := @sendAll_safely ι first job lock i now before _ _
        (desk.filter (repairs.getD fun _ => false)) inside fun sent part => by
          rw [moved]
          refine opened.block ?_
          rw [shape]
          exact ⟨desk, sent, rfl, List.prefix_rfl, among sent part⟩
      refine repaired.bind valid fun burst now _ burnt => ?_
      have ends {sent : List Message} (part : sent <+: desk.filter (repairs.getD fun _ => false)) :
          (job i).Reports (markers first before) (own ++ ((job i).plan desk).map .wrote ++ sent.map .wrote)
            (.applied false) := by
        rw [moved]
        rw [shape] at opened ⊢
        exact ⟨own, desk, opened, sent, rfl, among sent part⟩
      cases burst with
      | complete =>
          exact ask_safely rfl burnt fun ended now _ inside =>
            ended_safely inside (ends List.prefix_rfl)
      | gaveOut sent pending =>
          obtain ⟨arrived, inside, gave⟩ := burnt
          exact ask_safely rfl inside fun ended now _ inside =>
            ended_safely inside (ends gave.arrived_prefix)

theorem held_safely (inside : Inside lock first job i before [] now) :
    Safely lock first job i (Ended lock first job i before) (job i).held now := by
  refine ask_safely rfl inside fun stopping now valid inside => ?_
  cases stopping with
  | true => exact ended_safely inside ⟨nofun, fun _ => rfl⟩
  | false =>
      refine (desk_safely inside).bind valid fun desk now valid holds => ?_
      obtain ⟨own, inside, opened⟩ := holds
      cases desk with
      | none => exact ended_safely inside ⟨opened.2, fun _ => opened.1⟩
      | some desk =>
          replace opened : (job i).Opened (markers first before) own desk := opened
          refine ask_safely rfl inside fun connected now valid inside =>
            ?_
          cases connected with
          | false => exact ended_safely inside ⟨opened.still.2, fun _ => opened.still.1⟩
          | true =>
              refine (sendQuietly_safely opened valid inside).bind valid fun burst now valid delivered => ?_
              cases burst with
              | complete => exact conclude_safely opened delivered
              | gaveOut sent pending =>
                  obtain ⟨arrived, inside, gave⟩ := delivered
                  have still : Unmarked (own ++ arrived.map .wrote) := opened.still.2.append (unmarked_map arrived)
                  have wrote := opened.written_append arrived
                  show Safely lock first job i _
                    (.done (if sent = [] then Outcome.refused else .inPart sent pending)) now
                  split_ifs with unsent
                  · refine ended_safely inside ⟨still, fun plain => ?_⟩
                    rcases (gave plain).2 with same | ⟨lost, same⟩
                    · rw [wrote, same, unsent]
                    · exact absurd (same.symm.trans unsent) (by simp)
                  · refine ended_safely inside ⟨still, fun plain => ⟨unsent, own, desk, opened, ?_, ?_⟩⟩
                    · rw [wrote]
                    · rw [wrote]
                      exact gave plain

/-- What an attempt on the lock leaves: the process is inside, or as it was. -/
def Tried (lock : LockFile) (first : String → Option String) (job : ι → Job) (i : ι)
    (result : Except Refusal Unit) (now : Floor ι) : Prop :=
  match result with
  | .ok () => ∃ before, Inside lock first job i before [] now
  | .error _ => Outside lock i now

/-- A call that leaves the world as it is, before the lock. -/
theorem wait_safely {request : Request} {α : Type} {next : Answer request → Script α} {post : α → Floor ι → Prop}
    (asks : request.asks = true) (outside : Outside lock i now)
    (each : ∀ given now, Outside lock i now → Safely lock first job i post (next given) now) :
    Safely lock first job i post (.call request next) now := by
  refine .ask fun now given after valid passed done => ?_
  obtain rfl := done.still asks
  exact ⟨⟨valid, others_refl lock i after⟩, each given after (outside.mono passed)⟩

theorem leave_safely {refusal : Refusal} (outside : Outside lock i now) :
    Safely lock first job i (Tried lock first job i) (leave refusal) now :=
  wait_safely rfl outside fun _ _ outside =>
    .done fun _ _ passed => outside.mono passed

theorem attempt_safely {again : Script (Except Refusal Unit)} (outside : Outside lock i now)
    (rest : ∀ now, Outside lock i now → Safely lock first job i (Tried lock first job i) again now) :
    Safely lock first job i (Tried lock first job i) (attempt lock again) now := by
  refine .ask fun now given after valid passed done => ?_
  replace outside := outside.mono passed
  cases done with
  | noLock => exact ⟨⟨valid, others_refl lock i now⟩, leave_safely outside⟩
  | contended held =>
      refine ⟨⟨valid, others_refl lock i now⟩, ?_⟩
      refine wait_safely rfl outside fun stopping now outside => ?_
      cases stopping with
      | true => exact leave_safely outside
      | false => exact rest now outside
  | taken free =>
      have holds : (Function.update now.holder lock (some i)) lock = some i := Function.update_self ..
      have inside : Inside lock first job i now.log []
          { now with holder := Function.update now.holder lock (some i) } :=
        ⟨holds, by simp, outside.2, fun _ impossible => absurd impossible List.not_mem_nil, (job i).block_nil _⟩
      refine ⟨⟨valid, fun j other => ⟨?_, (Others.refl lock j now).log⟩⟩, .done fun now _ passed =>
        ⟨_, inside.mono passed⟩⟩
      show Function.update now.holder lock (some i) lock = some j ↔ now.holder lock = some j
      rw [holds, free]
      exact ⟨fun same => absurd (Option.some.inj same).symm other, fun impossible => by cases impossible⟩

theorem await_safely (room : ℕ) (outside : Outside lock i now) :
    Safely lock first job i (Tried lock first job i) (await lock room) now := by
  induction room generalizing now with
  | zero => exact attempt_safely outside fun now outside => leave_safely outside
  | succ room ih => exact attempt_safely outside fun now outside => ih outside

theorem deviceLock_safely (room : ℕ) (outside : Outside lock i now) :
    Safely lock first job i (Tried lock first job i) (deviceLock lock room) now := by
  refine wait_safely rfl outside fun there now outside => ?_
  cases there with
  | false => exact .done fun _ _ passed => outside.mono passed
  | true =>
      refine wait_safely rfl outside fun opened now outside => ?_
      cases opened with
      | false => exact .done fun _ _ passed => outside.mono passed
      | true => exact await_safely room outside

theorem operation_safely (room : ℕ) (valid : Valid first job now) (outside : Outside lock i now) :
    Safely lock first job i (Finished first job i) (operation lock room (job i)) now := by
  refine (deviceLock_safely room outside).bind valid fun result now valid tried => ?_
  cases result with
  | error refusal =>
      exact .value (Outside.finished tried) fun now passed finished => finished.mono passed
  | ok taken =>
      obtain ⟨before, inside⟩ := tried
      refine (held_safely inside).bind valid fun outcome now valid ended => ?_
      refine .ask fun now given after valid passed done => ?_
      obtain ⟨own, inside, reports⟩ := ended
      replace inside := inside.mono passed
      cases done
      have free : Function.update now.holder lock none lock = none := Function.update_self ..
      refine ⟨⟨valid, fun j other => ⟨?_, (Others.refl lock j now).log⟩⟩,
        .value ⟨before, own, [], inside.piece, reports⟩ fun now passed finished => finished.mono passed⟩
      show Function.update now.holder lock none lock = some j ↔ now.holder lock = some j
      rw [free, inside.holds]
      exact ⟨fun impossible => (by cases impossible), fun same => absurd (Option.some.inj same).symm other⟩

end Scripts

end Rules

/-! ### Every run -/

/-- Where the shared directory exists, every writer of a device finds the lock there, whatever its environment, its
user and its configuration. -/
theorem deviceLockPath_shared {isDir : String → Bool} {around : Surroundings} {key : String} (named : key ≠ "")
    (shared : isDir sharedLockDir = true) (plain : around.lockDir = none) (configDir : Option String) :
    deviceLockPath isDir around configDir key = some ⟨sharedLockDir, key ++ ".lock"⟩ := by
  unfold deviceLockPath
  rw [plain, if_neg named]
  exact if_pos shared

section Runs

variable {ι : Type} [DecidableEq ι] {isDir : String → Bool} {key : String} {first : String → Option String}
  {writer : ι → Writer} {lock : LockFile}

theorem writers_sound
    (placed : ∀ i, deviceLockPath isDir (writer i).around (writer i).configDir key = some lock) :
    Sound (rules lock first fun i => (writer i).job) (writers isDir key first writer)
      (Finished first fun i => (writer i).job) where
  starts i now valid outside := by
    show Safely lock first _ i _ ((writer i).script isDir key) now
    unfold Writer.script
    rw [placed i]
    exact operation_safely (writer i).room valid outside
  dies i now after valid lost := by
    obtain ⟨log, holder⟩ := lost
    refine ⟨Valid.still log valid, fun j other =>
      ⟨?_, [], by rw [log, List.append_nil], fun _ impossible => ?_, fun _ => rfl⟩⟩
    · rw [holder]
      split
      · next held =>
          rw [held]
          exact ⟨fun impossible => (by cases impossible), fun same => absurd (Option.some.inj same).symm other⟩
      · exact Iff.rfl
    · exact absurd impossible List.not_mem_nil
  stops now after valid lost := by
    obtain ⟨log, holder⟩ := lost
    refine ⟨Valid.still log valid, fun i outside => ⟨?_, log ▸ outside.2⟩⟩
    rw [holder]
    exact fun impossible => by cases impossible

/-- **The writers of a device take turns.** Whatever the writers are for, wherever they came from, however they
interleave, whichever of their calls fail and whichever of them die: where they find one lock, what each of them did
stands in one piece, a selection changes the marker behind all of its writes, and a start or a reconcile writes of the
desk it read in the piece, for the marker as it was before the piece and is behind it; a start that read none writes
of the desk it began with. An operation that ended did what it reports. -/
theorem serialised {now : State ι Request Answer Outcome (Floor ι)}
    (placed : ∀ i, deviceLockPath isDir (writer i).around (writer i).configDir key = some lock)
    (reached : (writers isDir key first writer).Reached ⟨fun _ => none, []⟩ now) (i : ι) :
    (∃ before own later, Piece first (fun i => (writer i).job) i before own later now.world.log)
      ∧ ∀ outcome, now.runs i = .running (.done outcome) →
        ∃ before own later, Piece first (fun i => (writer i).job) i before own later now.world.log
          ∧ (writer i).job.Reports (markers first before) own outcome := by
  have sound : Sound _ (writers isDir key first writer) _ := writers_sound placed
  have good := sound.reached
    (fun i => ⟨[], [], [], rfl, fun _ impossible => absurd impossible List.not_mem_nil,
      fun _ impossible => absurd impossible List.not_mem_nil, (writer i).job.block_nil _⟩)
    (fun i => ⟨fun impossible => (by cases impossible), fun _ impossible => absurd impossible List.not_mem_nil⟩)
    reached
  exact ⟨good.valid i, fun outcome ended => good.ends ended⟩

end Runs

/-- A fader of a desk. -/
def fader (output : ℕ) : Message := ⟨.volume output, "f", [.real 0]⟩

/-- A switch from a shell without a runtime directory, and the unit's reconcile. -/
def twoWriters : Bool → Writer
  | false => ⟨{}, some "/home/desk", 0, .select "routing.conf" (some "live") [fader 1, fader 2] none⟩
  | true => ⟨⟨none, some "/run/user/1000"⟩, none, 0, .reconcile "routing.conf"⟩

/-- The switch is over: it wrote its two registers and the marker, in one piece, and says so. -/
theorem twoWriters_serialised : ∃ now : State Bool Request Answer Outcome (Floor Bool),
    now.runs false = .running (.done (.applied true))
      ∧ now.world.log = [(false, .wrote (fader 1)), (false, .wrote (fader 2)),
        (false, .marked "routing.conf" (some "live"))]
      ∧ ∃ before own later,
        Piece (fun _ => none) (fun i => (twoWriters i).job) false before own later now.world.log
          ∧ (twoWriters false).job.Reports (markers (fun _ => none) before) own (.applied true) := by
  have placed : ∀ i, deviceLockPath (fun _ => true) (twoWriters i).around (twoWriters i).configDir "ucx"
      = some ⟨sharedLockDir, "ucx.lock"⟩ := by
    intro i
    have plain : (twoWriters i).around.lockDir = none := by cases i <;> rfl
    exact deviceLockPath_shared (by decide) rfl plain _
  have started : Came (writers (fun _ => true) "ucx" (fun _ => none) twoWriters) ⟨fun _ => none, []⟩ false
      (operation ⟨sharedLockDir, "ucx.lock"⟩ 0 (twoWriters false).job) ⟨fun _ => none, []⟩ := by
    have came := @came_start _ _ _ _ _ _ (writers (fun _ => true) "ucx" (fun _ => none) twoWriters)
      ⟨fun _ => none, []⟩ false
    have script : (twoWriters false).script (fun _ => true) "ucx"
        = operation ⟨sharedLockDir, "ucx.lock"⟩ 0 (twoWriters false).job := by
      unfold Writer.script
      rw [placed false]
      rfl
    exact script ▸ came
  have directory := started.call true (Law.directory true)
  have opened := directory.call true (Law.openLock true)
  have taken := opened.call .taken (Law.taken rfl)
  have going := taken.call false (Law.stopping false)
  have connected := going.call true (Law.connect true)
  have one := connected.call Sending.acknowledged Law.sent
  have two := one.call Sending.acknowledged Law.sent
  have ended := two.call true (Law.finish true)
  have marked := ended.call Change.inEffect Law.marked
  obtain ⟨runs, reached, finished⟩ := marked.call () Law.release
  exact ⟨_, finished, rfl, (serialised placed reached false).2 (.applied true) finished⟩

end OscmixDesk.Locking
