/-
**The volumes a failed switch gives back.**

A peak-safe apply pulls the outputs it changes down, sends its plan, and gives the volumes back on
every way out of the plan. The pull-downs themselves are outside of this: where one is refused, the
outputs ahead of it stay down, and a refused give-back leaves the outputs behind it down
(`gaveBack_iff`).

* `send_submits` — what a burst submits on a connection that stays usable;
* `Moving` — what an apply keeps, where looking and its writes keep it;
* `sendQuieted_stops` — where a failed switch stops.
-/

import OscmixDesk.Proof.Account

namespace OscmixDesk

open Effects

/-! ### What was submitted -/

/-- The last write submitted to a register. -/
def lastWrite (events : List Event) (path : Path) : Option Message :=
  (submitted events).reverse.find? (·.path = path)

/-- The request of a burst that is refused, where the connection stays usable up to it. -/
def firstRefused (world : World) (clock : ℕ) : List Message → Option ℕ
  | [] => none
  | _ :: rest =>
      match world.exchange clock with
      | .done => (firstRefused world (clock + 1) rest).map (· + 1)
      | .refused _ => some 0
      | _ => none

/-- What was added to a session. -/
def Session.since (stop start : Session) : List Event :=
  stop.events.drop start.events.length

theorem Session.since_eq {start stop : Session} {added : List Event}
    (events : stop.events = start.events ++ added) : stop.since start = added := by
  rw [Session.since, events, List.drop_left]

/-- A burst that went out in full. -/
def BurstDone (world : World) (burst : List Message) (start stop : Session) : Prop :=
  firstRefused world start.clock burst = none
    ∧ stop.events = start.events ++ burst.map (Event.write · .done) ∧ stop.lease = start.lease

/-- A burst that was refused part of the way, on a connection that is still usable. -/
def BurstRefused (world : World) (burst : List Message) (start stop : Session) : Prop :=
  start.lease = true ∧ ∃ count added, firstRefused world start.clock burst = some count
    ∧ stop.events = start.events ++ added ∧ submitted added = burst.take (count + 1)
    ∧ wentOut added = burst.take count

theorem submitted_done (burst : List Message) :
    submitted (burst.map (Event.write · .done)) = burst := by
  induction burst with
  | nil => rfl
  | cons message rest ih => exact congrArg (message :: ·) ih

theorem wentOut_done (burst : List Message) :
    wentOut (burst.map (Event.write · .done)) = burst := by
  induction burst with
  | nil => rfl
  | cons message rest ih => exact congrArg (message :: ·) ih

theorem sendFrom_submits (world : World) (burst : List Message) (written : List Path)
    (start : Session) :
    Ends (sendFrom world written burst) start (fun _ stop => BurstDone world burst start stop)
      (fun _ stop => stop.lease = true → BurstRefused world burst start stop) := by
  induction burst generalizing written start with
  | nil => exact ⟨rfl, (List.append_nil _).symm, rfl⟩
  | cons message rest ih =>
      unfold sendFrom
      rw [ends_bind]
      have next : Ends (exchange world message) start
          (fun _ stop => stop.clock = start.clock + 1) fun _ _ => False := by
        unfold exchange
        rw [ends_bind]
        show Ends _ { start with clock := start.clock + 1 } _ _
        generalize world.exchange start.clock = answer
        cases answer <;> rfl
      refine ((exchange_ends world message start).and next).imp (fun answer middle known => ?_)
        fun _ _ never => never.1.elim
      obtain ⟨⟨same, events, lease⟩, clock⟩ := known
      cases answer with
      | unsent => exact fun usable => by simp [lease, Exchange.usable] at usable
      | lost => exact fun usable => by simp [lease, Exchange.usable] at usable
      | refused busy =>
          intro usable
          have first : firstRefused world start.clock (message :: rest) = some 0 := by
            unfold firstRefused
            rw [← same]
          have held : start.lease = true := by simpa [lease, Exchange.usable] using usable
          exact ⟨held, 0, _, first, events, rfl, rfl⟩
      | done =>
          have later : firstRefused world start.clock (message :: rest)
              = (firstRefused world middle.clock rest).map (· + 1) := by
            rw [clock]
            show (match world.exchange start.clock with
              | .done => (firstRefused world (start.clock + 1) rest).map (· + 1)
              | .refused _ => some 0
              | _ => none) = _
            rw [← same]
          have held : middle.lease = start.lease := by simpa [Exchange.usable] using lease
          refine (ih (written ++ [message.path]) middle).imp (fun _ stop all => ?_)
            fun _ stop failed usable => ?_
          · obtain ⟨none, events', held'⟩ := all
            refine ⟨by rw [later, none]; rfl, ?_, held'.trans held⟩
            rw [events', events]
            simp [Exchange.events]
          · obtain ⟨held', count, added, first, events', asked, out⟩ := failed usable
            refine ⟨held.symm.trans held', count + 1, .write message .done :: added,
              by rw [later, first]; rfl, ?_, congrArg (message :: ·) asked,
              congrArg (message :: ·) out⟩
            rw [events', events]
            simp [Exchange.events]

/-- A burst goes out in full, or, on a connection that stays usable, up to a request that is
refused. -/
theorem send_submits (world : World) (burst : List Message) (start : Session) :
    Ends (send world burst) start (fun _ stop => BurstDone world burst start stop)
      (fun _ stop => stop.lease = true → BurstRefused world burst start stop) := by
  unfold send
  rw [ends_bind]
  show Ends (if start.lease then _ else _) start _ _
  by_cases lease : start.lease = true
  · rw [if_pos lease]
    exact sendFrom_submits world burst [] start
  · rw [if_neg lease]
    exact fun usable => absurd usable lease

/-! ### What an apply keeps -/

/-- A relation of sessions that looking and the writes of one kind keep. -/
structure Moving (world : World) (allowed : Message → Prop) (related : Session → Session → Prop) :
    Prop where
  refl : ∀ session, related session session
  trans : ∀ first second third, related first second → related second third → related first third
  looked : ∀ start stop, Looked start stop → related start stop
  exchanged : ∀ message, allowed message → Keeps related (exchange world message)

namespace Moving

variable {world : World} {allowed : Message → Prop} {related : Session → Session → Prop}
  (moving : Moving world allowed related)
include moving

theorem looks {α : Type} {prog : Act α} (looks : Looks true prog) : Keeps related prog :=
  fun start => (looks start).imp (fun _ stop => moving.looked start stop)
    fun _ stop failed => moving.looked start stop failed.1

theorem sendFrom (burst : List Message) (kind : ∀ message ∈ burst, allowed message)
    (written : List Path) : Keeps related (sendFrom world written burst) := by
  induction burst generalizing written with
  | nil => exact Keeps.pure moving.refl _
  | cons message rest ih =>
      unfold OscmixDesk.sendFrom
      refine (moving.exchanged message (kind message (List.mem_cons_self ..))).bind moving.trans
        fun answer => ?_
      cases answer with
      | unsent => exact Keeps.throw moving.refl _
      | lost => exact Keeps.throw moving.refl _
      | refused busy => exact Keeps.throw moving.refl _
      | done => exact ih (fun other member => kind other (List.mem_cons_of_mem _ member)) _

theorem send {burst : List Message} (kind : ∀ message ∈ burst, allowed message) :
    Keeps related (send world burst) := by
  unfold OscmixDesk.send
  have asked : Looks true holdsLease := Looks.ask _ (fun _ => rfl) fun _ held => held
  refine (moving.looks asked).bind moving.trans fun held => ?_
  exact (moving.sendFrom burst kind []).ite (Keeps.throw moving.refl _)

theorem sendPhases {sending : Sending} (plans : sending.Plans)
    (kind : ∀ write ∈ sending.wanted.writes, allowed write.message) (phases : List Phase)
    (written : List Path) (latest : Reports) (guard : Option PlaybackState) :
    Keeps related (sending.sendPhases world written latest guard phases) := by
  have own (phase : Phase) :
      ∀ message ∈ (sending.wanted.burst phase).map Write.message, allowed message := by
    intro message member
    obtain ⟨write, held, rfl⟩ := List.mem_map.mp member
    exact kind write (List.mem_of_mem_filter held)
  have phaseKeeps (phase : Phase) (remaining : List Write) (latest : Reports)
      (guard : Option PlaybackState) : Keeps related
        (sending.sendPhase world phase (sending.wanted.burst phase) remaining latest guard) := by
    unfold Sending.sendPhase
    refine (moving.looks (Sending.looks_before world plans phase _ _ _).weaken).bind moving.trans
      fun latest => ?_
    refine (Keeps.pure moving.refl _).ite ?_
    refine (moving.looks (looks_guardCheck world _ _)).bind moving.trans fun guard => ?_
    exact (moving.send (own phase)).bind moving.trans fun _ => Keeps.pure moving.refl _
  induction phases generalizing written latest guard with
  | nil => exact Keeps.pure moving.refl _
  | cons phase rest ih =>
      unfold Sending.sendPhases
      refine (Keeps.pure moving.refl _).ite ?_
      refine (moving.looks (looks_askStop world)).bind moving.trans fun _ => ?_
      refine (Keeps.throw moving.refl _).ite ?_
      refine ((phaseKeeps phase _ latest guard).catch moving.trans fun _ =>
        Keeps.throw moving.refl _).bind moving.trans ?_
      exact fun next => ih _ next.1 next.2

/-- A switch between quieted outputs writes the volumes and what its plan does. -/
theorem sendQuieted (wanted : Plan) {volumes : List (ℕ × ℚ)}
    (kind : ∀ volume ∈ volumes, ∀ args, allowed (volumeMessage volume.1 args))
    {sendPlan : Plan → Act Unit} (plan : ∀ wanted, Keeps related (sendPlan wanted)) :
    Keeps related (sendQuieted world wanted volumes sendPlan) := by
  have back : Keeps related
      (OscmixDesk.send world (givingBack volumes (declaredVolumes wanted))) := by
    refine moving.send fun message member => ?_
    obtain ⟨volume, held, rfl⟩ := List.mem_map.mp member
    exact kind volume held _
  have anyway : Keeps related (giveBackAnyway world volumes (declaredVolumes wanted)) := by
    refine back.catch moving.trans fun problem => ?_
    cases problem with
    | os cause => exact Keeps.pure moving.refl _
    | writeFailed cause written unwritten => exact Keeps.pure moving.refl _
    | fault fault => exact Keeps.throw moving.refl _
  unfold OscmixDesk.sendQuieted
  refine (moving.send fun message member => ?_).bind moving.trans fun _ => ?_
  · obtain ⟨volume, held, rfl⟩ := List.mem_map.mp member
    exact kind volume held _
  · refine ((plan _).catch moving.trans fun _ => ?_).bind moving.trans fun _ => back
    exact anyway.bind moving.trans fun _ => Keeps.throw moving.refl _

end Moving

/-- Only writes of one kind were submitted. -/
def Added (allowed : Message → Prop) (start stop : Session) : Prop :=
  ∃ added, stop.events = start.events ++ added ∧ ∀ message ∈ submitted added, allowed message

theorem added_moving (world : World) (allowed : Message → Prop) :
    Moving world allowed (Added allowed) where
  refl session := ⟨[], (List.append_nil _).symm, by simp [submitted]⟩
  trans first second third one two := by
    obtain ⟨added, events, all⟩ := one
    obtain ⟨added', events', all'⟩ := two
    refine ⟨added ++ added', by rw [events', events, List.append_assoc], fun message member => ?_⟩
    rw [submitted_append] at member
    exact (List.mem_append.mp member).elim (all message) (all' message)
  looked start stop looked := by
    obtain ⟨windows, events⟩ := looked.windows
    exact ⟨_, events, by simp⟩
  exchanged message kind start := by
    refine (exchange_ends world message start).imp (fun answer stop known => ?_)
      fun _ _ never => never.elim
    refine ⟨_, known.2.1, fun other member => ?_⟩
    cases answer <;> simp [Exchange.events, submitted] at member <;> exact member ▸ kind

/-! ### Pulled down and given back -/

/-- The write that pulls an output down. -/
def pullDown (volume : ℕ × ℚ) : Message :=
  volumeMessage volume.1 [.real levelMin]

/-- The write that gives an output its volume: the one the plan declares, else the reported one. -/
def Attempt.giveBack (attempt : Attempt) (volume : ℕ × ℚ) : Message :=
  volumeMessage volume.1
    ((declaredVolumes attempt.wanted (.volume volume.1)).getD [.real volume.2])

/-- Whether the last write submitted to each output that was pulled down gives it its volume. -/
def GaveBack (attempt : Attempt) (added : List Event) : Prop :=
  ∀ volume ∈ attempt.volumes, pullDown volume ∈ wentOut added →
    lastWrite added (.volume volume.1) = some (attempt.giveBack volume)

/-- Whether no refusal keeps an output down: where a pull-down is refused, the outputs ahead of it,
and where a give-back is refused, the outputs behind it, are to stay at the explicit zero. -/
structure Attempt.Returns (world : World) (sendPlan : Plan → Act Unit) (attempt : Attempt) :
    Prop where
  pulling : ∀ count,
    firstRefused world attempt.begins.clock (quieting attempt.volumes) = some count →
      ∀ volume ∈ attempt.volumes.take count, attempt.giveBack volume = pullDown volume
  giving : ∀ down, send world (quieting attempt.volumes) attempt.begins = (.ok (), down) →
    ∀ count, firstRefused world (sendPlan attempt.between down).2.clock attempt.back = some count →
      ∀ volume ∈ attempt.volumes.drop (count + 1), attempt.giveBack volume = pullDown volume

section Volumes

variable {volumes : List (ℕ × ℚ)}

theorem volume_unique (distinct : (volumes.map Prod.fst).Nodup) {first second : ℕ × ℚ}
    (member : first ∈ volumes) (member' : second ∈ volumes) (same : first.1 = second.1) :
    first = second :=
  List.inj_on_of_nodup_map distinct member member' same

/-- Among writes of distinct outputs, the last one of an output is its own. -/
theorem find_volume (distinct : (volumes.map Prod.fst).Nodup) {args : ℕ × ℚ → Args}
    {volume : ℕ × ℚ} (member : volume ∈ volumes) :
    (volumes.map fun volume => volumeMessage volume.1 (args volume)).reverse.find?
      (·.path = .volume volume.1) = some (volumeMessage volume.1 (args volume)) := by
  cases found : (volumes.map fun volume => volumeMessage volume.1 (args volume)).reverse.find?
      (·.path = .volume volume.1) with
  | none =>
      have absent := List.find?_eq_none.mp found (volumeMessage volume.1 (args volume))
        (List.mem_reverse.mpr (List.mem_map_of_mem member))
      exact absurd (by simp [volumeMessage]) absent
  | some message =>
      have path : message.path = .volume volume.1 := by simpa using List.find?_some found
      obtain ⟨other, member', rfl⟩ :=
        List.mem_map.mp (List.mem_reverse.mp (List.mem_of_find?_eq_some found))
      have same : other = volume := by
        refine volume_unique distinct member' member ?_
        simpa [volumeMessage] using path
      rw [same]

/-- Among writes of other registers there is none of an output. -/
theorem find_other {messages : List Message} {path : Path}
    (other : ∀ message ∈ messages, message.path ≠ path) :
    messages.reverse.find? (·.path = path) = none := by
  refine List.find?_eq_none.mpr fun message member => ?_
  simpa using other message (List.mem_reverse.mp member)

theorem find_volumes_other {args : ℕ × ℚ → Args} {output : ℕ}
    (absent : output ∉ volumes.map Prod.fst) :
    (volumes.map fun volume => volumeMessage volume.1 (args volume)).reverse.find?
      (·.path = .volume output) = none := by
  refine find_other fun message member same => absent ?_
  obtain ⟨volume, member', rfl⟩ := List.mem_map.mp member
  have output' : volume.1 = output := by simpa [volumeMessage] using same
  exact output' ▸ List.mem_map_of_mem member'

theorem mem_pullDown (distinct : (volumes.map Prod.fst).Nodup) {some' : List (ℕ × ℚ)}
    (within : some' ⊆ volumes) {volume : ℕ × ℚ} (member : volume ∈ volumes) :
    pullDown volume ∈ some'.map pullDown ↔ volume ∈ some' := by
  constructor
  · intro pulled
    obtain ⟨other, member', same⟩ := List.mem_map.mp pulled
    have output : other.1 = volume.1 := by
      simpa [pullDown, volumeMessage] using congrArg Message.path same
    rwa [← volume_unique distinct (within member') member output]
  · exact List.mem_map_of_mem

end Volumes

/-! ### Where a failed switch stops -/

theorem giveBackAnyway_stops (world : World) (volumes : List (ℕ × ℚ))
    (declared : Path → Option Args) (start : Session) :
    Ends (giveBackAnyway world volumes declared) start
      (fun _ stop => stop = (send world (givingBack volumes declared) start).2)
      fun _ _ => False := by
  unfold giveBackAnyway
  rw [ends_catch]
  refine ((ends_self _ start).and (send_ends world _ start)).imp (fun _ stop run => ?_)
    fun problem stop failed => ?_
  · show stop = _
    rw [run.1]
  · obtain ⟨run, _, _, rfl, _⟩ := failed
    show stop = _
    rw [run]

/-- Where a failed switch fails: in its pull-downs, in its plan, behind which the volumes are given
back, or in the give-back. -/
inductive QuietedStops (world : World) (wanted : Plan) (volumes : List (ℕ × ℚ))
    (sendPlan : Plan → Act Unit) (start : Session) (problem : Raised) (stop : Session) : Prop
  | pulling (failed : send world (quieting volumes) start = (.error problem, stop))
  | sending (down later : Session) (pulled : send world (quieting volumes) start = (.ok (), down))
      (failed : sendPlan (withoutQuieted wanted volumes) down = (.error problem, later))
      (back : stop = (send world (givingBack volumes (declaredVolumes wanted)) later).2)
  | giving (down later : Session) (pulled : send world (quieting volumes) start = (.ok (), down))
      (sent : sendPlan (withoutQuieted wanted volumes) down = (.ok (), later))
      (failed : send world (givingBack volumes (declaredVolumes wanted)) later
        = (.error problem, stop))

theorem sendQuieted_stops (world : World) (wanted : Plan) (volumes : List (ℕ × ℚ))
    (sendPlan : Plan → Act Unit) (start : Session) :
    Ends (sendQuieted world wanted volumes sendPlan) start
      (fun _ _ => ∃ down later, send world (quieting volumes) start = (.ok (), down)
        ∧ sendPlan (withoutQuieted wanted volumes) down = (.ok (), later)
        ∧ (send world (givingBack volumes (declaredVolumes wanted)) later).1 = .ok ())
      (QuietedStops world wanted volumes sendPlan start) := by
  unfold sendQuieted
  rw [ends_bind]
  refine (ends_self _ start).imp (fun _ down pulled => ?_) fun _ _ run => .pulling run
  rw [ends_bind, ends_catch]
  refine (ends_self _ down).imp (fun _ later sent => ?_) fun problem later sent => ?_
  · refine (ends_self _ later).imp (fun _ stop run => ⟨down, later, pulled, sent, ?_⟩)
      fun problem stop run => .giving down later pulled sent run
    rw [run]
  · rw [ends_bind]
    refine (giveBackAnyway_stops world volumes _ later).imp (fun _ stop back => ?_)
      fun _ _ never => never.elim
    exact .sending down later pulled sent back

section Quieted

variable {world : World} {attempt : Attempt} {sendPlan : Plan → Act Unit} {down stop : Session}
  {problem : Raised}

/-- Where a pull-down is refused, the outputs ahead of it stay down. -/
theorem gaveBack_pulling (distinct : (attempt.volumes.map Prod.fst).Nodup)
    (failed : send world (quieting attempt.volumes) attempt.begins = (.error problem, stop))
    (usable : stop.lease = true) :
    GaveBack attempt (stop.since attempt.begins) ↔ attempt.Returns world sendPlan := by
  obtain ⟨_, count, added, known, events, asked, out⟩ :=
    (send_submits world (quieting attempt.volumes) attempt.begins).raised failed usable
  have pulled : wentOut added = (attempt.volumes.take count).map pullDown := by
    rw [out, List.map_take]
    rfl
  have asked' : submitted added = (attempt.volumes.take (count + 1)).map pullDown := by
    rw [asked, List.map_take]
    rfl
  have last {volume : ℕ × ℚ} (member : volume ∈ attempt.volumes.take count) :
      lastWrite added (.volume volume.1) = some (pullDown volume) := by
    unfold lastWrite
    rw [asked']
    refine find_volume ?_ (List.take_subset_take_left _ (Nat.le_succ count) member)
    exact distinct.sublist ((List.take_sublist _ _).map _)
  rw [Session.since_eq events]
  constructor
  · intro gave
    refine ⟨fun count' same volume member => ?_, fun down run => ?_⟩
    · obtain rfl : count = count' := Option.some.inj (known.symm.trans same)
      have down : pullDown volume ∈ wentOut added := by
        rw [pulled]
        exact List.mem_map_of_mem member
      have given := gave volume (List.mem_of_mem_take member) down
      rw [last member] at given
      exact (Option.some.inj given).symm
    · rw [failed] at run
      cases run
  · intro returns volume member down
    rw [pulled, mem_pullDown distinct (List.take_subset _ _) member] at down
    rw [last down, returns.pulling count known volume down]

/-- The last write of an output whose give-back was submitted is the give-back; of any other output
that was pulled down it is the pull-down. -/
theorem lastWrite_quieted (distinct : (attempt.volumes.map Prod.fst).Nodup)
    {between : List Message}
    (others : ∀ message ∈ between, ∀ volume ∈ attempt.volumes, message.path ≠ .volume volume.1)
    {added : List Event} {count : ℕ}
    (asked : submitted added
      = quieting attempt.volumes ++ between ++ attempt.back.take count) {volume : ℕ × ℚ}
    (member : volume ∈ attempt.volumes) :
    lastWrite added (.volume volume.1) = some (if volume ∈ attempt.volumes.take count then
      attempt.giveBack volume else pullDown volume) := by
  have back : attempt.back.take count
      = (attempt.volumes.take count).map fun volume => attempt.giveBack volume := by
    rw [List.map_take]
    rfl
  have mid : between.reverse.find? (·.path = .volume volume.1) = none :=
    find_other fun message member' => others message member' volume member
  unfold lastWrite
  rw [asked, back, List.reverse_append, List.reverse_append, List.find?_append, List.find?_append,
    mid, Option.none_or]
  by_cases given : volume ∈ attempt.volumes.take count
  · have sub : ((attempt.volumes.take count).map Prod.fst).Nodup :=
      distinct.sublist ((List.take_sublist _ _).map _)
    rw [if_pos given]
    show (((attempt.volumes.take count).map fun volume => volumeMessage volume.1 _).reverse.find?
      _).or _ = _
    rw [find_volume sub given]
    rfl
  · have absent : volume.1 ∉ (attempt.volumes.take count).map Prod.fst := by
      intro output
      obtain ⟨other, member', same⟩ := List.mem_map.mp output
      exact given (volume_unique distinct (List.mem_of_mem_take member') member same ▸ member')
    rw [if_neg given]
    show (((attempt.volumes.take count).map fun volume => volumeMessage volume.1 _).reverse.find?
      _).or _ = _
    rw [find_volumes_other absent, Option.none_or]
    exact find_volume distinct member

/-- Where a give-back is refused, the outputs behind it stay down. -/
theorem gaveBack_giving (distinct : (attempt.volumes.map Prod.fst).Nodup)
    (others : Keeps (Added fun message => ∀ volume ∈ attempt.volumes, message.path ≠ .volume volume.1)
      (sendPlan attempt.between))
    (pulled : send world (quieting attempt.volumes) attempt.begins = (.ok (), down))
    (stops : stop = (send world attempt.back (sendPlan attempt.between down).2).2)
    (usable : stop.lease = true) :
    GaveBack attempt (stop.since attempt.begins) ↔ attempt.Returns world sendPlan := by
  obtain ⟨first, events, _⟩ :=
    (send_submits world (quieting attempt.volumes) attempt.begins).returned pulled
  have middle : Added (fun message => ∀ volume ∈ attempt.volumes,
      message.path ≠ .volume volume.1) down (sendPlan attempt.between down).2 := by
    exact others.run down
  obtain ⟨between, events', kind⟩ := middle
  have behind (count : ℕ) {volume : ℕ × ℚ} (member : volume ∈ attempt.volumes) :
      volume ∉ attempt.volumes.take count ↔ volume ∈ attempt.volumes.drop count := by
    have split := member
    have apart : (attempt.volumes.take count ++ attempt.volumes.drop count).Nodup := by
      rw [List.take_append_drop]
      exact distinct.of_map _
    rw [← List.take_append_drop count attempt.volumes, List.mem_append] at split
    exact ⟨split.resolve_left, fun later ahead => (List.nodup_append'.mp apart).2.2 ahead later⟩
  -- How much of the give-back was submitted, and the refusal that stopped it.
  have given : ∃ count added, stop.events = (sendPlan attempt.between down).2.events ++ added
      ∧ submitted added = attempt.back.take count
      ∧ ∀ volume ∈ attempt.volumes, volume ∉ attempt.volumes.take count ↔
          ∃ refused, firstRefused world (sendPlan attempt.between down).2.clock attempt.back
            = some refused ∧ volume ∈ attempt.volumes.drop (refused + 1) := by
    rcases run : send world attempt.back (sendPlan attempt.between down).2
      with ⟨problem | ⟨⟩, last⟩
    · rw [run] at stops
      subst stops
      obtain ⟨_, refused, added, known, events'', asked, _⟩ :=
        (send_submits world attempt.back _).raised run usable
      refine ⟨refused + 1, added, events'', asked, fun volume member => ?_⟩
      rw [behind _ member]
      refine ⟨fun later => ⟨refused, known, later⟩, fun later => ?_⟩
      obtain ⟨other, same, later⟩ := later
      rwa [Option.some.inj (known.symm.trans same)]
    · rw [run] at stops
      subst stops
      obtain ⟨known, events'', _⟩ := (send_submits world attempt.back _).returned run
      refine ⟨attempt.volumes.length, _, events'', ?_, fun volume member => ?_⟩
      · rw [submitted_done, List.take_of_length_le]
        simp [Attempt.back, givingBack]
      · rw [List.take_length]
        refine iff_of_false (fun absent => absent member) ?_
        rintro ⟨refused, same, _⟩
        rw [known] at same
        cases same
  obtain ⟨count, added, events'', asked, kept⟩ := given
  have since : stop.since attempt.begins
      = (quieting attempt.volumes).map (Event.write · .done) ++ between ++ added := by
    refine Session.since_eq ?_
    rw [events'', events', events, List.append_assoc, List.append_assoc, List.append_assoc]
  have whole : submitted (stop.since attempt.begins)
      = quieting attempt.volumes ++ submitted between ++ attempt.back.take count := by
    rw [since, submitted_append, submitted_append, submitted_done, asked]
  have out {volume : ℕ × ℚ} (member : volume ∈ attempt.volumes) :
      pullDown volume ∈ wentOut (stop.since attempt.begins) := by
    rw [since, wentOut_append, wentOut_append, wentOut_done]
    exact List.mem_append_left _ (List.mem_append_left _ (List.mem_map_of_mem member))
  constructor
  · intro gave
    refine ⟨fun refused same => ?_, fun down' run refused same volume member => ?_⟩
    · rw [first] at same
      cases same
    · rw [pulled] at run
      cases run
      have held : volume ∈ attempt.volumes := List.mem_of_mem_drop member
      have ahead : volume ∉ attempt.volumes.take count :=
        (kept volume held).mpr ⟨refused, same, member⟩
      have last := gave volume held (out held)
      rw [lastWrite_quieted distinct kind whole held, if_neg ahead] at last
      exact (Option.some.inj last).symm
  · intro returns volume member _
    rw [lastWrite_quieted distinct kind whole member]
    by_cases ahead : volume ∈ attempt.volumes.take count
    · rw [if_pos ahead]
    · obtain ⟨refused, same, later⟩ := (kept volume member).mp ahead
      rw [if_neg ahead, returns.giving down pulled refused same volume later]

end Quieted

/-! ### The whole apply -/

/-- How a prepared plan is sent. -/
def Prepared.send (world : World) (config : Config) (requireLinkConfirmation : List Path)
    (intent : ApplyIntent) (prepared : Prepared) (plan : Plan) : Act Unit :=
  sendInOrder world (prepared.sending config requireLinkConfirmation intent plan) prepared.latest

theorem attempt_looked (world : World) (config : Config) (intent : ApplyIntent)
    (prepared : Prepared) (middle : Session) :
    Looked middle (attempt world config intent prepared middle).begins := by
  have vetting := vet_ends world config intent prepared middle
  rcases vetted : vet world config intent prepared middle with ⟨problem | wanted, later⟩
  · simp only [attempt, vetted]
    exact (vetting.raised vetted).1
  · have looked : Looked middle later := vetting.returned vetted
    have reading := looks_pulledVolumes world config wanted intent prepared.latest later
    rcases read : pulledVolumes world config wanted intent prepared.latest later
      with ⟨problem | volumes, last⟩
    · simp only [attempt, vetted, read]
      exact looked.trans (reading.raised read).1
    · simp only [attempt, vetted, read]
      exact looked.trans (reading.returned read)

/-- An apply that pulls outputs down sends its plan between them. -/
theorem applyRouting_quieted {world : World} {config : Config} {intent : ApplyIntent}
    {requireLinkConfirmation leaveAlone confirmed : List Path} {observed : Option Reports}
    {start middle : Session} {prepared : Prepared}
    (gathered : gather world config intent leaveAlone confirmed observed start
      = (.ok prepared, middle))
    (pulls : (attempt world config intent prepared middle).volumes ≠ []) :
    applyRouting world config intent requireLinkConfirmation leaveAlone confirmed observed start
      = sendQuieted world (attempt world config intent prepared middle).wanted
          (attempt world config intent prepared middle).volumes
          (prepared.send world config requireLinkConfirmation intent)
          (attempt world config intent prepared middle).begins := by
  unfold applyRouting
  rw [run_bind gathered]
  rcases vetted : vet world config intent prepared middle with ⟨problem | wanted, later⟩
  · exact absurd (by simp only [attempt, vetted]) pulls
  · rw [run_bind vetted]
    unfold sendQuietly
    rcases read : pulledVolumes world config wanted intent prepared.latest later
      with ⟨problem | volumes, last⟩
    · exact absurd (by simp only [attempt, vetted, read]) pulls
    · rw [run_bind read]
      have known : attempt world config intent prepared middle = ⟨wanted, volumes, last⟩ := by
        simp only [attempt, vetted, read]
      rw [known] at pulls ⊢
      rw [if_neg (fun empty => pulls (List.isEmpty_iff.mp empty))]
      rfl

/-- A plan between quieted outputs leaves their volumes alone. -/
theorem prepared_others (world : World) (config : Config) (requireLinkConfirmation : List Path)
    (intent : ApplyIntent) (prepared : Prepared) (plans : ∃ entries, desired config = .ok entries)
    {attempt : Attempt} (pulls : attempt.volumes ≠ []) :
    Keeps (Added fun message => ∀ volume ∈ attempt.volumes, message.path ≠ .volume volume.1)
      (prepared.send world config requireLinkConfirmation intent attempt.between) := by
  have made : (prepared.sending config requireLinkConfirmation intent attempt.between).Plans := plans
  refine (added_moving world _).sendPhases made (fun write member volume quieted same => ?_) _ _ _ _
  have between : attempt.between = withoutQuieted attempt.wanted attempt.volumes :=
    if_neg fun empty => pulls (List.isEmpty_iff.mp empty)
  have member : write ∈ attempt.between.writes := member
  rw [between] at member
  have other : Path.volume volume.1 ∈ attempt.volumes.map fun volume => Path.volume volume.1 :=
    List.mem_map.mpr ⟨volume, quieted, rfl⟩
  have kept := List.of_mem_filter member
  rw [show write.path = .volume volume.1 from same] at kept
  simp only [List.contains_iff_mem.mpr other] at kept
  exact Bool.false_ne_true kept

theorem gaveBack_nothing {attempt : Attempt} (none : attempt.volumes = []) (world : World)
    (sendPlan : Plan → Act Unit) (added : List Event) :
    GaveBack attempt added ↔ attempt.Returns world sendPlan := by
  refine iff_of_true (fun volume member => ?_) ⟨fun _ _ volume member => ?_,
    fun _ _ _ _ volume member => ?_⟩
  · rw [none] at member
    cases member
  · rw [none, List.take_nil] at member
    cases member
  · rw [none, List.drop_nil] at member
    cases member

/-- Windows are no writes. -/
theorem gaveBack_looked {attempt : Attempt} {start begins stop : Session}
    (looked : Looked start begins) (added : List Event)
    (events : stop.events = begins.events ++ added) :
    GaveBack attempt (stop.since start) ↔ GaveBack attempt (stop.since begins) := by
  obtain ⟨windows, seen⟩ := looked.windows
  have since : stop.since start = windows.map .window ++ added := by
    refine Session.since_eq ?_
    rw [events, seen, List.append_assoc]
  unfold GaveBack lastWrite
  rw [since, Session.since_eq events, wentOut_append, submitted_append, wentOut_windows,
    submitted_windows, List.nil_append, List.nil_append]

/-- Where an apply fails and the connection stays usable, every output that was pulled down has its
volume back, exactly where no refused pull-down and no refused give-back keeps one down. -/
theorem gaveBack_iff {world : World} {config : Config} {intent : ApplyIntent}
    {requireLinkConfirmation leaveAlone confirmed : List Path} {observed : Option Reports}
    {start middle stop : Session} {problem : Raised} {prepared : Prepared}
    (failed : applyRouting world config intent requireLinkConfirmation leaveAlone confirmed observed
      start = (.error problem, stop))
    (usable : stop.lease = true)
    (gathered : gather world config intent leaveAlone confirmed observed start
      = (.ok prepared, middle)) :
    GaveBack (attempt world config intent prepared middle) (stop.since start)
      ↔ (attempt world config intent prepared middle).Returns world
          (prepared.send world config requireLinkConfirmation intent) := by
  by_cases none : (attempt world config intent prepared middle).volumes = []
  · exact gaveBack_nothing none world _ _
  · have distinct := attempt_volumes_nodup world config intent prepared middle
    have looked : Looked start (attempt world config intent prepared middle).begins :=
      ((looks_gather world config intent leaveAlone confirmed observed start).returned
        gathered).trans (attempt_looked world config intent prepared middle)
    rw [applyRouting_quieted gathered none] at failed
    generalize attempt world config intent prepared middle = attempt at none distinct looked failed ⊢
    have others := prepared_others world config requireLinkConfirmation intent prepared
      (gather_plans gathered) none
    have between : attempt.between = withoutQuieted attempt.wanted attempt.volumes :=
      if_neg fun empty => none (List.isEmpty_iff.mp empty)
    have added : Added (fun _ => True) attempt.begins stop :=
      ((added_moving world _).sendQuieted attempt.wanted (fun _ _ _ => trivial)
        (fun plan => (added_moving world _).sendPhases
          (show Sending.Plans (prepared.sending config _ intent plan) from gather_plans gathered)
          (fun _ _ => trivial) _ _ _ _)
        attempt.begins).raised failed
    obtain ⟨added, events, _⟩ := added
    rw [gaveBack_looked looked added events]
    cases (sendQuieted_stops world _ _ _ _).raised failed with
    | pulling failed => exact gaveBack_pulling distinct failed usable
    | sending down later pulled failed stops =>
        rw [← between] at failed
        exact gaveBack_giving distinct others pulled (by rw [stops, failed]; rfl) usable
    | giving down later pulled sent failed =>
        rw [← between] at sent
        refine gaveBack_giving distinct others pulled ?_ usable
        rw [sent]
        exact (congrArg Prod.snd failed).symm

/-- The attempt of an apply, where its plan can be made. -/
def attemptOf (world : World) (config : Config) (intent : ApplyIntent) (observed : Option Reports)
    (start : Session) : Option (Prepared × Attempt) :=
  match gather world config intent [] [] observed start with
  | (.ok prepared, middle) => some (prepared, attempt world config intent prepared middle)
  | (.error _, _) => none

theorem attemptOf_gather {world : World} {config : Config} {intent : ApplyIntent}
    {observed : Option Reports} {start : Session} {prepared : Prepared} {made : Attempt}
    (known : attemptOf world config intent observed start = some (prepared, made)) :
    ∃ middle, gather world config intent [] [] observed start = (.ok prepared, middle)
      ∧ attempt world config intent prepared middle = made := by
  unfold attemptOf at known
  rcases run : gather world config intent [] [] observed start with ⟨problem | other, middle⟩
  · rw [run] at known
    cases known
  · rw [run] at known
    cases known
    exact ⟨middle, rfl, rfl⟩

/-- Whether neither the pull-downs nor the give-back of an apply is refused. -/
def unrefused (world : World) (config : Config) (observed : Option Reports) : Bool :=
  match attemptOf world config .explicit observed {} with
  | none => false
  | some (prepared, made) =>
      let down := (send world (quieting made.volumes) made.begins).2
      let later := (prepared.send world config [] .explicit made.between down).2
      !made.volumes.isEmpty
        && firstRefused world made.begins.clock (quieting made.volumes) = none
        && firstRefused world later.clock made.back = none

/-- A write of the plan is refused, and the output has its volume back. -/
theorem quietRoute_gaveBack :
    ∃ prepared made, attemptOf (refusingAt 9) (configOf quietRoute) .explicit (some oneVolume) {}
        = some (prepared, made) ∧ made.volumes ≠ []
      ∧ GaveBack made ((applyRouting (refusingAt 9) (configOf quietRoute) .explicit [] [] []
        (some oneVolume) {}).2.since {}) := by
  have failed : (applyRouting (refusingAt 9) (configOf quietRoute) .explicit [] [] []
      (some oneVolume) {}).1 = .error (.writeFailed (.refused (.link .playback 1) true) []
        [.link .playback 1, .link .output 3, .mix 3 .playback 1]) := by decide +kernel
  have usable : (applyRouting (refusingAt 9) (configOf quietRoute) .explicit [] [] []
      (some oneVolume) {}).2.lease = true := by decide +kernel
  have fine : unrefused (refusingAt 9) (configOf quietRoute) (some oneVolume) = true := by
    decide +kernel
  unfold unrefused at fine
  rcases known : attemptOf (refusingAt 9) (configOf quietRoute) .explicit (some oneVolume) {}
    with _ | ⟨prepared, made⟩
  · rw [known] at fine
    cases fine
  · rw [known] at fine
    simp only [Bool.and_eq_true, Bool.not_eq_true', decide_eq_true_eq] at fine
    obtain ⟨middle, gathered, rfl⟩ := attemptOf_gather known
    refine ⟨_, _, rfl, fun none => ?_, (gaveBack_iff (Prod.ext failed rfl) usable gathered).mpr ?_⟩
    · rw [none] at fine
      cases fine.1.1
    · refine ⟨fun count same => ?_, fun down run count same => ?_⟩
      · rw [fine.1.2] at same
        cases same
      · rw [run] at fine
        rw [fine.2] at same
        cases same

/-- A desk that reports two volumes. -/
def twoVolumes : Reports := fun path =>
  if path = .volume 3 then some ⟨"f", [.real (-10)]⟩
  else if path = .volume 4 then some ⟨"f", [.real (-12)]⟩
  else none

/-- Whether the volume of output 3 is pulled down and is to be given back at another value. -/
def pullsThree (world : World) (config : Config) (observed : Option Reports) : Bool :=
  match attemptOf world config .explicit observed {} with
  | none => false
  | some (_, made) => made.volumes.contains (3, -10)
      && made.giveBack (3, -10) ≠ pullDown (3, -10)

/-- The pull-down of output 4 is refused, and output 3 stays at the explicit zero. -/
theorem quietRoute_staysDown :
    ∃ problem stop, applyRouting (refusingAt 1) (configOf quietRoute) .explicit [] [] []
        (some twoVolumes) {} = (.error problem, stop) ∧ stop.lease = true
      ∧ submitted (stop.since {}) = [volumeMessage 3 [.real levelMin],
          volumeMessage 4 [.real levelMin]]
      ∧ ∃ prepared middle, gather (refusingAt 1) (configOf quietRoute) .explicit [] []
          (some twoVolumes) {} = (.ok prepared, middle)
        ∧ ¬ GaveBack (attempt (refusingAt 1) (configOf quietRoute) .explicit prepared middle)
            (stop.since {}) := by
  have failed : (applyRouting (refusingAt 1) (configOf quietRoute) .explicit [] [] []
      (some twoVolumes) {}).1 = .error (.writeFailed (.refused (.volume 4) true) [.volume 3]
        [.volume 4]) := by decide +kernel
  have usable : (applyRouting (refusingAt 1) (configOf quietRoute) .explicit [] [] []
      (some twoVolumes) {}).2.lease = true := by decide +kernel
  have asked : submitted ((applyRouting (refusingAt 1) (configOf quietRoute) .explicit [] [] []
      (some twoVolumes) {}).2.since {}) = [volumeMessage 3 [.real levelMin],
        volumeMessage 4 [.real levelMin]] := by decide +kernel
  have pulled : pullDown (3, -10) ∈ wentOut ((applyRouting (refusingAt 1) (configOf quietRoute)
      .explicit [] [] [] (some twoVolumes) {}).2.since {}) := by decide +kernel
  have last : lastWrite ((applyRouting (refusingAt 1) (configOf quietRoute) .explicit [] [] []
      (some twoVolumes) {}).2.since {}) (.volume 3) = some (pullDown (3, -10)) := by decide +kernel
  have three : pullsThree (refusingAt 1) (configOf quietRoute) (some twoVolumes) = true := by
    decide +kernel
  refine ⟨_, _, Prod.ext failed rfl, usable, asked, ?_⟩
  unfold pullsThree at three
  rcases known : attemptOf (refusingAt 1) (configOf quietRoute) .explicit (some twoVolumes) {}
    with _ | ⟨prepared, made⟩
  · rw [known] at three
    cases three
  · rw [known] at three
    simp only [Bool.and_eq_true, List.contains_iff_mem, decide_eq_true_eq] at three
    obtain ⟨middle, gathered, rfl⟩ := attemptOf_gather known
    refine ⟨prepared, middle, gathered, fun gave => three.2 ?_⟩
    exact (Option.some.inj (last.symm.trans (gave (3, -10) three.1 pulled))).symm

end OscmixDesk
