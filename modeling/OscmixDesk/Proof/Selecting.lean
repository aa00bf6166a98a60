/-
**What the outcome of a selection says.**

A selection that is refused says that nothing was written, one that is written in part that something
was, and the marker changes only behind an acknowledged END of a desk that was written in full. This
is so unless a quieted switch is cut short: its outputs were pulled down, and the stage that fails
wrote nothing, so that its empty account reads as if the switch had written nothing
(`truthful_iff`).
-/

import OscmixDesk.Model.Profiles
import OscmixDesk.Proof.GiveBack

namespace OscmixDesk

open Effects

/-! ### Acknowledged writes -/

/-- The messages of the acknowledged writes. -/
def acknowledged (events : List Event) : List Message :=
  events.filterMap fun event =>
    match event with
    | .write message .done => some message
    | _ => none

@[simp] theorem acknowledged_append (first second : List Event) :
    acknowledged (first ++ second) = acknowledged first ++ acknowledged second :=
  List.filterMap_append

@[simp] theorem acknowledged_windows (windows : List (List Message)) :
    acknowledged (windows.map Event.window) = [] := by
  unfold acknowledged
  induction windows with
  | nil => rfl
  | cons window rest ih => exact ih

/-- A connection that is still usable acknowledged every write that went out. -/
def Acked (start stop : Session) : Prop :=
  stop.lease = true → start.lease = true ∧ ∃ added, stop.events = start.events ++ added
    ∧ acknowledged added = wentOut added

theorem acked_moving (world : World) : Moving world (fun _ => True) Acked where
  refl session held := ⟨held, [], (List.append_nil _).symm, rfl⟩
  trans first second third one two held := by
    obtain ⟨held', added', events', same'⟩ := two held
    obtain ⟨held'', added, events, same⟩ := one held'
    refine ⟨held'', added ++ added', by rw [events', events, List.append_assoc], ?_⟩
    rw [acknowledged_append, wentOut_append, same, same']
  looked start stop looked held := by
    obtain ⟨windows, events⟩ := looked.windows
    exact ⟨looked.held held, _, events, by simp⟩
  exchanged message _ start := by
    refine (exchange_ends world message start).imp (fun answer stop known held => ?_)
      fun _ _ never => never.elim
    rw [known.2.2, Bool.and_eq_true] at held
    refine ⟨held.1, _, known.2.1, ?_⟩
    cases answer with
    | unsent => rfl
    | lost => exact (Bool.false_ne_true held.2).elim
    | refused busy => rfl
    | done => rfl

/-- What looking and writing keep, an apply keeps. -/
theorem Moving.applyRouting {world : World} {related : Session → Session → Prop}
    (moving : Moving world (fun _ => True) related) (config : Config) (intent : ApplyIntent)
    (requireLinkConfirmation leaveAlone confirmed : List Path) (observed : Option Reports) :
    Keeps related (applyRouting world config intent requireLinkConfirmation leaveAlone confirmed
      observed) := by
  intro start
  unfold OscmixDesk.applyRouting
  rw [ends_bind]
  refine ((moving.looks (looks_gather world config intent leaveAlone confirmed observed) start).and
    (ends_self _ start)).imp (fun prepared middle gathered => ?_) fun _ _ failed => failed.1
  have plans : ∃ entries, desired config = .ok entries := gather_plans gathered.2
  have vetting : Keeps related (vet world config intent prepared) := fun start =>
    (vet_ends world config intent prepared start).imp (fun _ stop => moving.looked start stop)
      fun _ stop failed => moving.looked start stop failed.1
  have plan (wanted : Plan) : Keeps related (sendInOrder world
      (prepared.sending config requireLinkConfirmation intent wanted) prepared.latest) := by
    have made : (prepared.sending config requireLinkConfirmation intent wanted).Plans := plans
    exact moving.sendPhases made (fun _ _ => trivial) _ _ _ _
  have all : Keeps related (do
      let wanted ← vet world config intent prepared
      sendQuietly world config wanted intent prepared.latest fun plan => sendInOrder world
        (prepared.sending config requireLinkConfirmation intent plan) prepared.latest) := by
    refine vetting.bind moving.trans fun wanted => ?_
    unfold sendQuietly
    refine (moving.looks (looks_pulledVolumes world config wanted intent _)).bind moving.trans
      fun volumes => ?_
    exact (plan wanted).ite (moving.sendQuieted wanted (fun _ _ _ => trivial) plan)
  exact (all middle).imp (fun _ stop => moving.trans start middle stop gathered.1)
    fun _ stop => moving.trans start middle stop gathered.1

/-! ### Attempts that write everything, and attempts that are cut short -/

/-- An attempt that nothing stops writes every planned register at the value the plan gives it. -/
theorem Attempt.covers (attempt : Attempt) {write : Write} (planned : write ∈ attempt.wanted.writes) :
    ∃ message ∈ attempt.messages, message.path = write.path
      ∧ declaredVolumes attempt.wanted write.path = some message.args := by
  have ⟨last, found⟩ : ∃ last, attempt.wanted.writes.reverse.find? (·.path = write.path)
      = some last := by
    refine Option.isSome_iff_exists.mp (List.find?_isSome.mpr ⟨write, ?_, by simp⟩)
    exact List.mem_reverse.mpr planned
  have same : last.path = write.path := by simpa using List.find?_some found
  have member : last ∈ attempt.wanted.writes :=
    List.mem_reverse.mp (List.mem_of_find?_eq_some found)
  have declared : declaredVolumes attempt.wanted write.path = some last.args := by
    rw [declaredVolumes, found]
    rfl
  have order : attempt.rest.Perm attempt.between.writes :=
    bucketSort_writes_perm attempt.between.writes
  have sent (kept : last ∈ attempt.between.writes) : last.message ∈ attempt.messages :=
    List.mem_append_left _ (List.mem_append_right _
      (List.mem_map_of_mem (order.mem_iff.mpr kept)))
  by_cases none : attempt.volumes.isEmpty = true
  · refine ⟨last.message, sent ?_, same, declared⟩
    rw [Attempt.between, if_pos none]
    exact member
  · by_cases quieted : ∃ volume ∈ attempt.volumes, Path.volume volume.1 = write.path
    · obtain ⟨volume, held, path⟩ := quieted
      refine ⟨attempt.giveBack volume, List.mem_append_right _ (List.mem_map_of_mem held), path, ?_⟩
      rw [Attempt.giveBack, path, declared]
      rfl
    · refine ⟨last.message, sent ?_, same, declared⟩
      rw [Attempt.between, if_neg none]
      refine List.mem_filter.mpr ⟨member, ?_⟩
      have other : last.path ∉ attempt.volumes.map fun volume => Path.volume volume.1 := by
        intro inside
        obtain ⟨volume, held, path⟩ := List.mem_map.mp inside
        exact quieted ⟨volume, held, path.trans same⟩
      simpa using other

/-- A quieted switch that is cut short: its outputs were pulled down, and the plan, or behind it the
give-back, fails in front of its first write. -/
def Attempt.CutShort (world : World) (sendPlan : Plan → Act Unit) (attempt : Attempt) : Prop :=
  attempt.volumes ≠ [] ∧ ∃ down,
    send world (quieting attempt.volumes) attempt.begins = (.ok (), down)
      ∧ ((∃ problem later, sendPlan attempt.between down = (.error problem, later)
          ∧ later.sent = down.sent)
        ∨ ∃ later problem stop, sendPlan attempt.between down = (.ok (), later)
          ∧ send world attempt.back later = (.error problem, stop) ∧ stop.sent = later.sent)

theorem sent_nil {start stop : Session} {out : List Message} (sent : stop.sent = start.sent ++ out)
    (none : messagePaths out = []) : stop.sent = start.sent := by
  rw [sent, List.map_eq_nil_iff.mp none, List.append_nil]

theorem out_nil {start stop : Session} {out : List Message} (sent : stop.sent = start.sent ++ out)
    (same : stop.sent = start.sent) : out = [] :=
  List.append_right_eq_self.mp (sent.symm.trans same)

/-- The session behind a burst holds what was there before it. -/
theorem send_prefix (world : World) (burst : List Message) (start : Session) :
    ∃ more, (send world burst start).2.sent = start.sent ++ more := by
  rcases run : send world burst start with ⟨problem | ⟨⟩, stop⟩
  · obtain ⟨_, count, _, sent⟩ := (send_ends world burst start).raised run
    exact ⟨_, sent⟩
  · exact ⟨_, (send_ends world burst start).returned run⟩

section Quieted

variable {world : World} {attempt : Attempt} {sendPlan : Plan → Act Unit} {writes : List Write}

/-- Behind the pull-downs, more went out than at the start. -/
theorem pulled_sent (pulls : attempt.volumes ≠ []) {down stop : Session} {more : List Message}
    (pulled : send world (quieting attempt.volumes) attempt.begins = (.ok (), down))
    (sent : stop.sent = down.sent ++ more) : stop.sent ≠ attempt.begins.sent := by
  intro same
  have quieted := (send_ends world _ attempt.begins).returned pulled
  rw [sent, quieted, List.append_assoc] at same
  have none := (List.append_eq_nil_iff.mp (List.append_right_eq_self.mp same)).1
  exact pulls (List.map_eq_nil_iff.mp none)

/-- Whether an error says that nothing was written. -/
def Raised.TellsNothing (problem : Raised) : Prop :=
  problem.Plain true ∨ ∃ cause unwritten, problem = .writeFailed cause [] unwritten

/-- A plan that fails is a burst of its writes that fails. -/
theorem planFailed_burst {start stop : Session} {problem : Raised}
    (failed : Sending.PlanFailed start [] writes problem stop) :
    BurstFailed start [] (writes.map Write.message) problem stop := by
  obtain ⟨cause, count, rfl, sent⟩ := failed
  refine ⟨cause, count, ?_, by rw [sent, List.map_take]⟩
  rw [← List.map_take, ← List.map_drop, messagePaths_writes, messagePaths_writes]

/-- A burst that fails with an empty account wrote nothing, and one that wrote nothing fails with an
empty account. -/
theorem burstFailed_empty {burst : List Message} {start stop : Session} {problem : Raised}
    (failed : BurstFailed start [] burst problem stop) :
    stop.sent = start.sent ↔ problem.TellsNothing := by
  obtain ⟨cause, count, rfl, sent⟩ := failed
  rw [List.nil_append]
  constructor
  · intro same
    rw [out_nil sent same]
    exact Or.inr ⟨_, _, rfl⟩
  · rintro (plain | ⟨_, _, empty⟩)
    · exact plain.elim
    · cases account : messagePaths (burst.take count) with
      | nil => exact sent_nil sent account
      | cons path rest =>
          rw [account] at empty
          cases empty

/-- A quieted switch fails with an empty account where its pull-downs wrote nothing, or where it is
cut short. -/
theorem quieted_ends (pulls : attempt.volumes ≠ [])
    (plan : ∀ start, Ends (sendPlan attempt.between) start
      (fun _ stop => stop.sent = start.sent ++ writes.map Write.message)
      (Sending.PlanFailed start [] writes)) :
    Ends (sendQuieted world attempt.wanted attempt.volumes sendPlan) attempt.begins
      (fun _ _ => ¬ attempt.CutShort world sendPlan)
      fun problem stop => (attempt.CutShort world sendPlan ∧ stop.sent ≠ attempt.begins.sent
          ∧ problem.TellsNothing)
        ∨ (¬ attempt.CutShort world sendPlan
          ∧ (stop.sent = attempt.begins.sent ↔ problem.TellsNothing)) := by
  have between : withoutQuieted attempt.wanted attempt.volumes = attempt.between :=
    (if_neg fun empty => pulls (List.isEmpty_iff.mp empty)).symm
  refine (sendQuieted_stops world attempt.wanted attempt.volumes sendPlan attempt.begins).imp
    (fun _ _ done short => ?_) fun problem stop stops => ?_
  · obtain ⟨down, later, pulled, sent, back⟩ := done
    rw [between] at sent
    obtain ⟨_, down', pulled', ends⟩ := short
    rw [pulled] at pulled'
    cases pulled'
    rcases ends with ⟨problem, later', failed, _⟩ | ⟨later', problem, stop, sent', failed, _⟩
    · rw [sent] at failed
      cases failed
    · rw [sent] at sent'
      cases sent'
      have back : (send world attempt.back later).1 = .ok () := back
      rw [failed] at back
      cases back
  · cases stops with
    | pulling failed =>
        refine Or.inr ⟨fun short => ?_, burstFailed_empty ((send_ends world _ _).raised failed)⟩
        obtain ⟨_, _, pulled, _⟩ := short
        rw [failed] at pulled
        cases pulled
    | sending down later pulled failed stops =>
        rw [between] at failed
        have account := (plan down).raised failed
        have empty := burstFailed_empty (planFailed_burst account)
        obtain ⟨_, count, _, sent⟩ := account
        obtain ⟨more, gone⟩ := send_prefix world (givingBack attempt.volumes
          (declaredVolumes attempt.wanted)) later
        rw [← stops, sent, List.append_assoc] at gone
        have down' := pulled_sent pulls pulled gone
        by_cases same : later.sent = down.sent
        · exact Or.inl ⟨⟨pulls, down, pulled, Or.inl ⟨problem, later, failed, same⟩⟩, down',
            empty.mp same⟩
        · refine Or.inr ⟨fun short => ?_, iff_of_false down' fun none => same (empty.mpr none)⟩
          obtain ⟨_, other, pulled', ends⟩ := short
          rw [pulled] at pulled'
          cases pulled'
          rcases ends with ⟨_, _, failed', same'⟩ | ⟨_, _, _, sent', _⟩
          · rw [failed] at failed'
            cases failed'
            exact same same'
          · rw [failed] at sent'
            cases sent'
    | giving down later pulled sent failed =>
        rw [between] at sent
        have failed : send world attempt.back later = (.error problem, stop) := failed
        have empty := burstFailed_empty ((send_ends world _ _).raised failed)
        obtain ⟨_, count, _, gone⟩ := (send_ends world _ _).raised failed
        rw [(plan down).returned sent, List.append_assoc] at gone
        have down' := pulled_sent pulls pulled gone
        by_cases same : stop.sent = later.sent
        · exact Or.inl ⟨⟨pulls, down, pulled, Or.inr ⟨later, problem, stop, sent, failed, same⟩⟩,
            down', empty.mp same⟩
        · refine Or.inr ⟨fun short => ?_, iff_of_false down' fun none => same (empty.mpr none)⟩
          obtain ⟨_, other, pulled', ends⟩ := short
          rw [pulled] at pulled'
          cases pulled'
          rcases ends with ⟨_, _, failed', _⟩ | ⟨_, _, _, sent', failed', same'⟩
          · rw [sent] at failed'
            cases failed'
          · rw [sent] at sent'
            cases sent'
            rw [failed] at failed'
            cases failed'
            exact same same'

end Quieted

/-! ### Accounts of a whole apply -/

/-- Whether an apply is a quieted switch that is cut short. -/
def CutShort (world : World) (config : Config) (intent : ApplyIntent)
    (requireLinkConfirmation leaveAlone confirmed : List Path) (observed : Option Reports)
    (start : Session) : Prop :=
  ∃ prepared middle, gather world config intent leaveAlone confirmed observed start
      = (.ok prepared, middle)
    ∧ (attempt world config intent prepared middle).CutShort world
        (prepared.send world config requireLinkConfirmation intent)

theorem applyRouting_accounts (world : World) (config : Config) (intent : ApplyIntent)
    (requireLinkConfirmation leaveAlone confirmed : List Path) (observed : Option Reports)
    (start : Session) :
    Ends (applyRouting world config intent requireLinkConfirmation leaveAlone confirmed observed)
      start
      (fun _ _ => ¬ CutShort world config intent requireLinkConfirmation leaveAlone confirmed
        observed start)
      fun problem stop => (CutShort world config intent requireLinkConfirmation leaveAlone confirmed
          observed start ∧ stop.sent ≠ start.sent ∧ problem.TellsNothing)
        ∨ (¬ CutShort world config intent requireLinkConfirmation leaveAlone confirmed observed start
          ∧ (stop.sent = start.sent ↔ problem.TellsNothing)) := by
  have ending := applyRouting_ends world config intent requireLinkConfirmation leaveAlone confirmed
    observed start
  rcases gathered : gather world config intent leaveAlone confirmed observed start
    with ⟨problem | prepared, middle⟩
  · have whole : ¬ CutShort world config intent requireLinkConfirmation leaveAlone confirmed
        observed start := by
      rintro ⟨_, _, other, _⟩
      rw [gathered] at other
      cases other
    refine ending.imp (fun _ _ _ => whole) fun problem stop failed => Or.inr ⟨whole, ?_⟩
    rcases failed with ⟨same, plain⟩ | ⟨_, _, other, _⟩
    · exact iff_of_true same (Or.inl plain)
    · rw [gathered] at other
      cases other
  · have same : CutShort world config intent requireLinkConfirmation leaveAlone confirmed observed
        start ↔ (attempt world config intent prepared middle).CutShort world
          (prepared.send world config requireLinkConfirmation intent) := by
      constructor
      · rintro ⟨_, _, other, short⟩
        rw [gathered] at other
        cases other
        exact short
      · exact fun short => ⟨prepared, middle, gathered, short⟩
    rw [same]
    by_cases pulls : (attempt world config intent prepared middle).volumes = []
    · have whole : ¬ (attempt world config intent prepared middle).CutShort world
          (prepared.send world config requireLinkConfirmation intent) := fun short => short.1 pulls
      refine ending.imp (fun _ _ _ => whole) fun problem stop failed => Or.inr ⟨whole, ?_⟩
      rcases failed with ⟨same, plain⟩ | ⟨_, _, other, begins, failed⟩
      · exact iff_of_true same (Or.inl plain)
      · rw [gathered] at other
        cases other
        rcases failed with ⟨_, writes, _, failed⟩ | ⟨pulls', _⟩
        · have empty := burstFailed_empty (planFailed_burst failed)
          rwa [begins] at empty
        · exact absurd pulls pulls'
    · have looked : Looked start (attempt world config intent prepared middle).begins :=
        ((looks_gather world config intent leaveAlone confirmed observed start).returned
          gathered).trans (attempt_looked world config intent prepared middle)
      have made : (prepared.sending config requireLinkConfirmation intent
          (attempt world config intent prepared middle).between).Plans := gather_plans gathered
      have run : Ends (sendQuieted world (attempt world config intent prepared middle).wanted
          (attempt world config intent prepared middle).volumes
          (prepared.send world config requireLinkConfirmation intent))
          (attempt world config intent prepared middle).begins _ _ :=
        quieted_ends pulls fun start => sendPlan_ends world made prepared.latest start
      unfold Ends at run ⊢
      rw [applyRouting_quieted gathered pulls]
      refine Ends.imp run (fun _ _ whole => whole) fun problem stop failed => ?_
      rw [looked.sent] at failed
      exact failed

/-! ### Selections -/

/-- Whether every planned register and the END were acknowledged. -/
structure Committed (world : World) (config : Config) (start stop : Selection) : Prop where
  ended : stop.ended = true
  wrote : ∃ prepared middle, gather world config .explicit [] [] none start.session
      = (.ok prepared, middle)
    ∧ ∃ added, stop.session.events = start.session.events ++ added
      ∧ ∀ write ∈ (attempt world config .explicit prepared middle).wanted.writes,
        ∃ message ∈ acknowledged added, message.path = write.path
          ∧ declaredVolumes (attempt world config .explicit prepared middle).wanted write.path
            = some message.args

/-- What the result of a selection says is so. -/
structure Truthful (world : World) (config : Config) (start : Selection)
    (result : Except Raised Outcome × Selection) : Prop where
  refused : ∀ outcome, result.1 = .ok outcome → outcome.state = .refused →
    result.2.session.sent = start.session.sent
  inPart : ∀ outcome, result.1 = .ok outcome → outcome.state = .writtenInPart →
    result.2.session.sent ≠ start.session.sent
  marked : result.2.marker ≠ start.marker → Committed world config start result.2

theorem ends_onSession {α : Type} {act : Act α} {selection : Selection}
    {ok : α → Selection → Prop} {stopped : Raised → Selection → Prop} :
    Ends (onSession act) selection ok stopped ↔
      Ends act selection.session (fun value session => ok value { selection with session })
        fun problem session => stopped problem { selection with session } := by
  unfold Ends onSession
  rcases act selection.session with ⟨problem | value, session⟩ <;> rfl

/-- Only windows were added, and the marker is as it was. -/
structure Reading (start stop : Selection) : Prop where
  looked : Looked start.session stop.session
  marker : stop.marker = start.marker

/-- Whether an outcome says that the desk was applied. -/
def Outcome.Applied (outcome : Outcome) : Prop :=
  outcome.state ≠ .refused ∧ outcome.state ≠ .writtenInPart

theorem outcome_applied (result : VerifyResult) (device : Option Device) :
    (result.outcome device).Applied := by
  unfold VerifyResult.outcome Outcome.Applied
  dsimp only
  split_ifs <;> exact ⟨by simp, by simp⟩

theorem looks_verifyRouting (world : World) (registers : List Expectation) (device : Option Device)
    (dependencies : List Path) :
    Looks true (verifyRouting world registers device dependencies) := by
  unfold verifyRouting
  refine (looks_askStop world).bind fun _ => Looks.ite (Looks.ret _) ?_
  refine (looks_requestDump world).bind fun _ => looks_tick.bind fun _ => ?_
  refine (looks_watch world _ _ _ _ _).bind fun _ => ?_
  exact (looks_record _).bind fun _ => Looks.ret _

theorem looks_readBack (world : World) (config : Config) : Looks true (readBack world config) :=
  (Looks.planned (Or.inl rfl)).bind fun _ => looks_verifyRouting world _ _ _

theorem expected_ends (config : Config) (start : Selection) :
    Ends (onSession (planned (expectedRegisters config))) start (fun _ => Reading start)
      fun _ => Reading start := by
  rw [ends_onSession]
  exact (Looks.planned (Or.inl rfl) start.session).imp (fun _ _ looked => ⟨looked, rfl⟩)
    fun _ _ failed => ⟨failed.1, rfl⟩

theorem checkApplied_ends (world : World) (config : Config) (start : Selection) :
    Ends (checkApplied world config) start
      (fun outcome stop => Reading start stop ∧ outcome.Applied) fun _ => Reading start := by
  unfold checkApplied
  rw [ends_bind]
  refine (expected_ends config start).imp (fun registers middle read => ?_) fun _ _ read => read
  rw [ends_catch, ends_bind, ends_onSession]
  refine (looks_readBack world config middle.session).imp (fun result session looked => ?_)
    fun problem session failed => ?_
  · exact ⟨⟨read.looked.trans looked, read.marker⟩, outcome_applied _ _⟩
  · have kept : Reading start { middle with session } :=
      ⟨read.looked.trans failed.1, read.marker⟩
    cases problem with
    | os cause => exact ⟨kept, by simp [Outcome.Applied]⟩
    | writeFailed cause written unwritten => exact kept
    | fault fault => exact kept

theorem unchecked_ends (config : Config) (start : Selection) :
    Ends (unchecked config) start (fun outcome stop => Reading start stop ∧ outcome.Applied)
      fun _ => Reading start := by
  unfold unchecked
  rw [ends_bind]
  exact (expected_ends config start).imp (fun _ _ read => ⟨read, by simp [Outcome.Applied]⟩)
    fun _ _ read => read

/-- The marker changes behind an acknowledged END, on a connection that is still usable. -/
theorem commit_ends (world : World) (host : Host) (config : Config) (name : Option String)
    (verify : Bool) (start : Selection) :
    Ends (commit world host config name verify) start
      (fun outcome stop => Looked start.session stop.session ∧ stop.ended = true
        ∧ stop.session.lease = true ∧ outcome.Applied)
      fun _ => Reading start := by
  have checked : Ends (appliedOutcome world config verify) start
      (fun outcome stop => Reading start stop ∧ outcome.Applied) fun _ => Reading start := by
    cases verify with
    | true => exact checkApplied_ends world config start
    | false => exact unchecked_ends config start
  unfold commit
  rw [ends_bind]
  refine checked.imp (fun outcome middle read => ?_) fun _ _ read => read
  rw [ends_bind]
  unfold Ends finish
  by_cases acknowledged : (middle.session.lease && host.ends) = true
  · rw [if_pos acknowledged]
    have held : middle.session.lease = true := (Bool.and_eq_true _ _ ▸ acknowledged).1
    have marked (selection : Selection) : (if host.marks then { selection with marker := name }
        else selection).session = selection.session
          ∧ (if host.marks then { selection with marker := name } else selection).ended
            = selection.ended := by
      cases host.marks <;> exact ⟨rfl, rfl⟩
    have after := marked { middle with ended := true }
    refine ⟨?_, after.2, ?_, read.2⟩
    · rw [after.1]
      exact read.1.looked
    · rw [after.1]
      exact held
  · rw [if_neg acknowledged]
    exact read.1

theorem Attempt.Failed.account {world : World} {attempt : Attempt} {problem : Raised}
    {stop : Session} (failed : attempt.Failed world problem stop) :
    ∃ cause written unwritten, problem = .writeFailed cause written unwritten := by
  rcases failed with ⟨_, _, _, cause, _, account, _⟩ | ⟨_, failed⟩
  · exact ⟨cause, _, _, account⟩
  · cases failed with
    | pulling failed =>
        obtain ⟨cause, _, account, _⟩ := (send_ends world _ _).raised failed
        exact ⟨cause, _, _, account⟩
    | sending count pulled account sent =>
        obtain ⟨cause, unwritten, account⟩ := account
        exact ⟨cause, _, unwritten, account⟩
    | giving count pulled account sent =>
        obtain ⟨cause, account⟩ := account
        exact ⟨cause, _, _, account⟩

/-- An application that was written in full, with its connection still usable. -/
def Applied (world : World) (config : Config) (start stop : Session) : Prop :=
  ∃ prepared middle, gather world config .explicit [] [] none start = (.ok prepared, middle)
    ∧ stop.sent = start.sent ++ (attempt world config .explicit prepared middle).messages
    ∧ Acked start stop

/-- What an application that failed says, and what it wrote. -/
def Tells (cut : Prop) (start stop : Session) (outcome : Outcome) : Prop :=
  (outcome.state = .refused ∧ (stop.sent = start.sent ↔ ¬ cut))
    ∨ (outcome.state = .writtenInPart ∧ stop.sent ≠ start.sent ∧ ¬ cut)

/-- The outcome of an error of the planner's, the connection's or the backend's. -/
theorem notWritten_tells {cut : Prop} {start stop : Session} {problem : Raised} {outcome : Outcome}
    (failed : (cut ∧ stop.sent ≠ start.sent ∧ problem.TellsNothing)
      ∨ (¬ cut ∧ (stop.sent = start.sent ↔ problem.TellsNothing)))
    (known : notWritten problem = some outcome) : Tells cut start stop outcome := by
  have nothing (empty : problem.TellsNothing) : stop.sent = start.sent ↔ ¬ cut := by
    rcases failed with ⟨cut, more, _⟩ | ⟨whole, same⟩
    · exact iff_of_false more fun whole => whole cut
    · exact iff_of_true (same.mpr empty) whole
  have something (full : ¬ problem.TellsNothing) : stop.sent ≠ start.sent ∧ ¬ cut := by
    rcases failed with ⟨_, _, empty⟩ | ⟨whole, same⟩
    · exact absurd empty full
    · exact ⟨fun none => full (same.mp none), whole⟩
  cases problem with
  | os cause =>
      cases known
      exact Or.inl ⟨rfl, nothing (Or.inl trivial)⟩
  | fault fault =>
      cases fault with
      | config problem =>
          cases known
          exact Or.inl ⟨rfl, nothing (Or.inl rfl)⟩
      | value problem => cases known
  | writeFailed cause written unwritten =>
      cases written with
      | nil =>
          cases known
          exact Or.inl ⟨rfl, nothing (Or.inr ⟨cause, unwritten, rfl⟩)⟩
      | cons path rest =>
          cases known
          refine Or.inr ⟨rfl, something ?_⟩
          rintro (plain | ⟨_, _, empty⟩)
          · exact plain.elim
          · cases empty

theorem openDesk_ends (host : Host) (config : Config) (start : Session) :
    Ends (openDesk host config) start (fun _ stop => stop = start ∧ host.refuses = none)
      fun problem stop => stop = start ∧ problem.Plain true
        ∧ (host.refuses ≠ none ∨ ∀ entries, desired config ≠ .ok entries) := by
  unfold openDesk
  rw [ends_bind]
  unfold planned
  rw [ends_lift]
  refine ⟨fun entries _ => ?_, fun problem failed => ?_⟩
  · cases host.refuses with
    | none => exact ⟨rfl, rfl⟩
    | some cause => exact ⟨rfl, trivial, Or.inl (by simp)⟩
  · cases made : desired config with
    | ok entries =>
        rw [made] at failed
        cases failed
    | error fault =>
        rw [made] at failed
        cases failed
        exact ⟨rfl, rfl, Or.inr (by simp)⟩

theorem applied_ends (world : World) (host : Host) (config : Config) (start : Selection) :
    Ends (applied world host config) start
      (fun result stop => stop.marker = start.marker ∧
        match result with
        | none => Applied world config start.session stop.session ∧ host.refuses = none
            ∧ ¬ CutShort world config .explicit [] [] [] none start.session
        | some outcome => Tells (host.refuses = none
            ∧ CutShort world config .explicit [] [] [] none start.session) start.session stop.session
              outcome)
      fun _ stop => stop.marker = start.marker
        ∧ ¬ (host.refuses = none
            ∧ CutShort world config .explicit [] [] [] none start.session) := by
  unfold applied
  rw [ends_catch, ends_bind, ends_onSession]
  refine (openDesk_ends host config start.session).imp (fun _ session opened => ?_)
    fun problem session failed => ?_
  · obtain ⟨rfl, opened⟩ := opened
    rw [ends_bind, ends_onSession]
    refine (((applyRouting_ends world config .explicit [] [] [] none start.session).and
      (applyRouting_accounts world config .explicit [] [] [] none start.session)).and
        ((acked_moving world).applyRouting config .explicit [] [] [] none start.session)).imp
      (fun _ stop done => ?_) fun problem stop failed => ?_
    · obtain ⟨⟨⟨prepared, middle, gathered, sent⟩, whole⟩, acked⟩ := done
      exact ⟨rfl, ⟨prepared, middle, gathered, sent, acked⟩, opened, whole⟩
    · have account := failed.1.2
      have cut : (host.refuses = none
          ∧ CutShort world config .explicit [] [] [] none start.session)
          ↔ CutShort world config .explicit [] [] [] none start.session := and_iff_right opened
      cases known : notWritten problem with
      | some outcome =>
          show _ ∧ Tells _ _ _ _
          rw [cut]
          exact ⟨rfl, notWritten_tells account known⟩
      | none =>
          show _ ∧ _
          rw [cut]
          refine ⟨rfl, fun short => ?_⟩
          rcases account with ⟨_, more, _⟩ | ⟨whole, _⟩
          · rcases failed.1.1 with ⟨same, _⟩ | ⟨_, _, _, _, failure⟩
            · exact more same
            · obtain ⟨cause, written, unwritten, rfl⟩ := failure.account
              cases written <;> cases known
          · exact whole short
  · obtain ⟨rfl, plain, refused⟩ := failed
    have closed : ¬ (host.refuses = none
        ∧ CutShort world config .explicit [] [] [] none start.session) := by
      rintro ⟨opens, _, _, gathered, _⟩
      obtain ⟨entries, made⟩ := gather_plans gathered
      exact refused.elim (fun refuses => refuses opens) fun unmade => unmade entries made
    cases known : notWritten problem with
    | some outcome =>
        refine ⟨rfl, notWritten_tells (Or.inr ⟨closed, iff_of_true rfl (Or.inl plain)⟩) known⟩
    | none => exact ⟨rfl, closed⟩

/-- A desk that was applied, and whose END was acknowledged, is committed. -/
theorem Applied.committed {world : World} {config : Config} {start middle stop : Selection}
    (applied : Applied world config start.session middle.session)
    (looked : Looked middle.session stop.session) (ended : stop.ended = true)
    (held : stop.session.lease = true) : Committed world config start stop := by
  obtain ⟨prepared, later, gathered, sent, acked⟩ := applied
  obtain ⟨_, added, events, same⟩ := acked (looked.held held)
  obtain ⟨windows, events'⟩ := looked.windows
  have out : wentOut added = (attempt world config .explicit prepared later).messages := by
    unfold Session.sent at sent
    rw [events, wentOut_append] at sent
    exact List.append_cancel_left sent
  refine ⟨ended, prepared, later, gathered, added ++ windows.map .window, ?_, ?_⟩
  · rw [events', events, List.append_assoc]
  · intro write planned
    obtain ⟨message, member, path, declared⟩ := Attempt.covers _ planned
    refine ⟨message, ?_, path, declared⟩
    rw [acknowledged_append, acknowledged_windows, List.append_nil, same, out]
    exact member

/-- A result that leaves the marker alone is truthful where its outcome is. -/
theorem truthful_unmarked {world : World} {config : Config} {start stop : Selection}
    {result : Except Raised Outcome} (same : stop.marker = start.marker)
    (refused : ∀ outcome, result = .ok outcome → outcome.state = .refused →
      stop.session.sent = start.session.sent)
    (inPart : ∀ outcome, result = .ok outcome → outcome.state = .writtenInPart →
      stop.session.sent ≠ start.session.sent) : Truthful world config start (result, stop) :=
  ⟨refused, inPart, fun marked => absurd same marked⟩

/-- What a selection says is so, exactly where it is no quieted switch that is cut short. -/
theorem truthful_iff (world : World) (host : Host) (config : Config) (name : Option String)
    (verify : Bool) (start : Selection) :
    Truthful world.unstopped config start (activate world host config name verify start)
      ↔ ¬ (host.maintenance = false ∧ host.refuses = none
        ∧ CutShort world.unstopped config .explicit [] [] [] none start.session) := by
  have ends : Ends (activate world host config name verify) start
      (fun outcome stop => Truthful world.unstopped config start (.ok outcome, stop)
        ↔ ¬ (host.maintenance = false ∧ host.refuses = none
          ∧ CutShort world.unstopped config .explicit [] [] [] none start.session))
      fun problem stop => Truthful world.unstopped config start (.error problem, stop)
        ↔ ¬ (host.maintenance = false ∧ host.refuses = none
          ∧ CutShort world.unstopped config .explicit [] [] [] none start.session) := by
    unfold activate
    by_cases fenced : host.maintenance = true
    · rw [if_pos fenced]
      refine iff_of_true (truthful_unmarked rfl (fun _ _ _ => rfl) fun outcome same state => ?_)
        fun opened => ?_
      · cases same
        cases state
      · rw [fenced] at opened
        exact Bool.false_ne_true opened.1.symm
    · rw [if_neg fenced, ends_bind]
      have opened := and_iff_right (b := host.refuses = none
        ∧ CutShort world.unstopped config .explicit [] [] [] none start.session)
        (Bool.eq_false_iff.mpr fenced)
      rw [opened]
      refine (applied_ends world.unstopped host config start).imp (fun result middle done => ?_)
        fun problem stop failed => iff_of_true (truthful_unmarked failed.1 ?_ ?_) failed.2
      · cases result with
        | some outcome =>
            obtain ⟨unmarked, ⟨state, same⟩ | ⟨state, more, whole⟩⟩ := done
            · refine Iff.trans ⟨fun truthful => truthful.refused outcome rfl state, fun none =>
                truthful_unmarked unmarked (fun _ _ _ => none) fun other known state' => ?_⟩ same
              cases known
              rw [state] at state'
              cases state'
            · refine iff_of_true (truthful_unmarked unmarked (fun other known state' => ?_)
                fun _ _ _ => more) whole
              cases known
              rw [state] at state'
              cases state'
        | none =>
            obtain ⟨unmarked, applied, _, whole⟩ := done
            have closed := fun short : host.refuses = none
                ∧ CutShort world.unstopped config .explicit [] [] [] none start.session =>
              whole short.2
            show Ends (tryCatch _ _) middle _ _
            rw [ends_catch]
            refine (commit_ends world.unstopped host config name verify middle).imp
              (fun outcome stop done => iff_of_true ⟨fun other known state => ?_,
                fun other known state => ?_, fun _ => ?_⟩ closed) fun problem stop read => ?_
            · cases known
              exact absurd state done.2.2.2.1
            · cases known
              exact absurd state done.2.2.2.2
            · exact applied.committed done.1 done.2.1 done.2.2.1
            · have still : stop.marker = start.marker := read.marker.trans unmarked
              have late : Ends (pure (notFinished config) : Select Outcome) stop
                  (fun outcome stop => Truthful world.unstopped config start (.ok outcome, stop)
                    ↔ ¬ (host.refuses = none
                      ∧ CutShort world.unstopped config .explicit [] [] [] none start.session))
                  fun _ _ => True := by
                refine iff_of_true (truthful_unmarked still (fun other known state => ?_)
                  fun other known state => ?_) closed
                · cases known
                  cases state
                · cases known
                  cases state
              cases problem with
              | os cause => exact late
              | writeFailed cause written unwritten => exact late
              | fault fault =>
                  cases fault with
                  | config problem => exact late
                  | value problem =>
                      refine iff_of_true (truthful_unmarked still ?_ ?_) closed
                      · exact fun other known => by cases known
                      · exact fun other known => by cases known
      · exact fun other known => by cases known
      · exact fun other known => by cases known
  rcases run : activate world host config name verify start with ⟨problem | outcome, stop⟩
  · exact ends.raised run
  · exact ends.returned run

/-- A desk that reports the volume of output 3, and refuses one request. -/
def oneReportRefusing (count : ℕ) : World :=
  { refusingAt count with
    deliveries := fun _ => [some [⟨.volume 3, "f", [.real (-10)]⟩]] }

/-- A machine that has everything a selection needs. -/
def ready : Host where
  maintenance := false
  refuses := none
  ends := true
  marks := true
  syncs := true

/-- The volume of output 3 is pulled down and given back, the first write of the plan is refused, and
the outcome says that nothing was written. -/
theorem quietRoute_untruthful :
    ∃ outcome stop, activate (oneReportRefusing 10) ready (configOf quietRoute) (some "studio") true
        {} = (.ok outcome, stop)
      ∧ outcome.state = .refused ∧ messagePaths stop.session.sent = [.volume 3, .volume 3]
      ∧ ¬ Truthful (oneReportRefusing 10).unstopped (configOf quietRoute) {} (.ok outcome, stop) := by
  have result : (activate (oneReportRefusing 10) ready (configOf quietRoute) (some "studio") true
      {}).1 = .ok { state := .refused, reason := .cause (.refused (.link .playback 1) true) } := by
    decide +kernel
  have gone : messagePaths (activate (oneReportRefusing 10) ready (configOf quietRoute)
      (some "studio") true {}).2.session.sent = [.volume 3, .volume 3] := by decide +kernel
  refine ⟨_, _, Prod.ext result rfl, rfl, gone, fun truthful => ?_⟩
  have silent := truthful.refused _ rfl rfl
  rw [silent] at gone
  cases gone

end OscmixDesk
