/-
**The watcher judges across a lease.**

A watcher samples whether a lease is held when a delivery has come. A lease that begins and ends while it
waits for one delivery leaves no trace in that sample, and what was pending is judged all the same
(`judged_acrossLease`). Nor does a wait that ends with the connection: the watcher connects again and still
has its pending reports. Where no wait swallows a whole lease, and no connection ends while a report is
pending (`Clear`), everything pending was read since the last lease (`Fresh`), and so is everything that is
judged, on the connection it was read on (`watchSound`).
-/

import OscmixDesk.Model.Watch
import OscmixDesk.Proof.Discipline

namespace OscmixDesk.Backend

open Effects

/-! ### Leases in a history -/

/-- The packet says that a lease begins. -/
def Raw.begins (packet : Raw) : Prop :=
  packet.kind = leaseKind ∧ packet.code = controlBusy

instance (packet : Raw) : Decidable packet.begins :=
  inferInstanceAs (Decidable (_ ∧ _))

/-- Whether a lease is held, after one more occurrence; a new connection has heard of none. -/
def hearLease (held : Bool) : Occurrence → Bool
  | .read packet => if packet.kind = leaseKind then packet.code = controlBusy else held
  | .sent _ => held
  | .closed => false

/-- Whether a lease is held, as the last lease event said. -/
def leaseSays (history : List Occurrence) : Bool :=
  history.foldl hearLease false

theorem leaseSays_append (history : List Occurrence) (occurrence : Occurrence) :
    leaseSays (history ++ [occurrence]) = hearLease (leaseSays history) occurrence := by
  simp [leaseSays]

/-- Behind a connection that heard of no lease, the next one says what it says by itself. -/
theorem leaseSays_behind {past : List Occurrence} (free : leaseSays past = false) (history : List Occurrence) :
    leaseSays (past ++ history) = leaseSays history := by
  unfold leaseSays at free ⊢
  rw [List.foldl_append, free]

/-! ### Reading the next delivery -/

namespace Connection

variable {around : Surroundings} {start c : Connection}

/-- An open connection without a lease of its own that knows what the last lease event said, and has read
on. -/
structure Listens (start c : Connection) : Prop where
  more : start.history <+: c.history
  unclosed : Occurrence.closed ∉ c.history
  lease : c.lease = none
  epoch : c.epoch = start.epoch
  held : c.leaseHeld = leaseSays c.history

/-- A delivery was the last packet read. -/
def Delivered (start c : Connection) (delivery : Delivery) : Prop :=
  ∃ before packet, c.history = before ++ [.read packet] ∧ start.history <+: before
    ∧ packet.kind = observationKind ∧ delivery = ⟨packet.code, packet.sequence, .osc packet.payload⟩

/-- Nothing is in the queue, or what was read last; before the reply to HELLO that is nothing. -/
def Attentive (start c : Connection) : Prop :=
  Listens start c ∧ (c.queue = [] ∨ c.epoch ≠ [] ∧ ∃ delivery, c.queue = [delivery] ∧ Delivered start c delivery)

/-- One more occurrence leaves a connection open, unless it is its end. -/
theorem Listens.entered (listens : Listens start c) {d : Connection} {occurrence : Occurrence}
    (history : d.history = c.history ++ [occurrence]) (other : occurrence ≠ .closed) (lease : d.lease = c.lease)
    (epoch : d.epoch = c.epoch) (held : d.leaseHeld = hearLease c.leaseHeld occurrence) : Listens start d := by
  refine ⟨?_, fun member => ?_, lease.trans listens.lease, epoch.trans listens.epoch, ?_⟩
  · rw [history]
    exact listens.more.trans (List.prefix_append _ _)
  · rw [history] at member
    rcases List.mem_append.mp member with before | last
    · exact listens.unclosed before
    · exact other (List.mem_singleton.mp last).symm
  · rw [held, history, leaseSays_append, listens.held]

/-- Questions leave a connection listening. -/
theorem Listens.asked (listens : Listens start c) (n : ℕ) : Listens start { c with clock := n } :=
  ⟨listens.more, listens.unclosed, listens.lease, listens.epoch, listens.held⟩

/-- A connection that was closed has heard of no lease. -/
theorem leaseSays_shut (c : Connection) : leaseSays c.shut.history = false :=
  leaseSays_append c.history .closed

theorem check_any {ok : Unit → Connection → Prop} (goes : ok () { c with clock := c.clock + 1 }) :
    Effects.Ends (check around) c ok fun _ _ => True := by
  unfold check
  rw [ends_bind, ends_get, ends_ite]
  refine ⟨fun _ => trivial, fun _ => ?_⟩
  rw [ends_bind, ends_question, ends_ite]
  exact ⟨fun _ => trivial, fun _ => goes⟩

/-- A connection that was asked nothing, and read nothing. -/
def Idle (start c d : Connection) : Prop :=
  Listens start d ∧ d.queue = c.queue ∧ d.history = c.history

theorem Listens.idle (listens : Listens start c) (n : ℕ) : Idle start c { c with clock := n } :=
  ⟨listens.asked n, rfl, rfl⟩

/-- Without a lease there is none to keep alive. -/
theorem heartbeat_idle (listens : Listens start c) :
    Effects.Ends (heartbeat around) c (fun _ => Idle start c) fun _ _ => True := by
  unfold heartbeat
  rw [ends_bind]
  have checked : Effects.Ends (check around) c (fun _ => Idle start c) fun _ _ => True := check_any (listens.idle _)
  refine checked.imp (fun _ d idle => ?_) fun _ _ _ => trivial
  rw [ends_bind, ends_get, idle.1.lease]
  exact idle

theorem now_idle (listens : Listens start c) :
    Effects.Ends (now around) c (fun _ => Idle start c) fun _ _ => True :=
  listens.idle _

/-- What is read is entered. -/
theorem receive_any {ok : Option Raw → Connection → Prop} (quiet : ok none { c with clock := c.clock + 2 })
    (came : ∀ packet, ok (some packet)
      { c with clock := c.clock + 2, history := c.history ++ [.read packet] }) :
    Effects.Ends (receive around) c ok fun _ _ => True := by
  unfold receive
  rw [ends_bind]
  refine check_any ?_
  rw [ends_bind, ends_question]
  dsimp only
  cases around.incoming (c.clock + 1) with
  | quiet => exact quiet
  | failed => trivial
  | packet bytes truncated =>
      dsimp only
      rw [ends_ite]
      refine ⟨fun _ => trivial, fun _ => ?_⟩
      rw [ends_ite]
      refine ⟨fun _ => trivial, fun _ => ?_⟩
      rw [ends_ite]
      exact ⟨fun _ => trivial, fun _ => came (unpack bytes)⟩

/-- Reading an event, with nothing in the queue. -/
theorem event_attentive {packet : Raw} (listens : Listens start c) (empty : c.queue = []) :
    Effects.Ends (event packet) { c with history := c.history ++ [.read packet] } (fun _ => Attentive start)
      fun _ _ => True := by
  unfold event
  rw [ends_ite]
  refine ⟨fun _ => trivial, fun _ => ?_⟩
  rw [ends_ite]
  refine ⟨fun lease => ?_, fun lease => ?_⟩
  · unfold leaseEvent
    rw [ends_bind, ends_get, ends_ite]
    refine ⟨fun _ => trivial, fun _ => ?_⟩
    rw [ends_ite]
    refine ⟨fun _ => trivial, fun _ => ?_⟩
    rw [ends_change]
    refine ⟨listens.entered rfl nofun rfl rfl ?_, Or.inl empty⟩
    simp [hearLease, lease]
  have held : c.leaseHeld = hearLease c.leaseHeld (.read packet) := by simp [hearLease, lease]
  rw [ends_ite]
  refine ⟨fun _ => ?_, fun _ => ?_⟩
  · rw [ends_ite]
    exact ⟨fun _ => trivial, fun _ => ⟨listens.entered rfl nofun rfl rfl held, Or.inl empty⟩⟩
  rw [ends_ite]
  refine ⟨fun observation => ?_, fun _ => trivial⟩
  unfold observationEvent
  rw [ends_bind, ends_get, ends_ite]
  refine ⟨fun _ => trivial, fun sound => ?_⟩
  simp only [not_or] at sound
  rw [ends_bind, ends_change, ends_ite]
  refine ⟨fun _ => trivial, fun _ => ?_⟩
  rw [ends_change]
  refine ⟨listens.entered rfl nofun rfl rfl held, Or.inr ⟨sound.2.2.2.2.2, _, ?_, c.history, packet, rfl,
    listens.more, observation, rfl⟩⟩
  show c.queue ++ [_] = [_]
  rw [empty, List.nil_append]

theorem receiveEvent_attentive (listens : Listens start c) (empty : c.queue = []) :
    Effects.Ends (receiveEvent around) c (fun _ => Attentive start) fun _ _ => True := by
  unfold receiveEvent
  rw [ends_bind]
  refine receive_any ?_ fun packet => ?_
  · exact ⟨listens.asked _, Or.inl empty⟩
  · exact event_attentive (listens.asked (c.clock + 2)) empty

/-- A delivery is taken as soon as it is read. -/
theorem nextDelivery_attentive (timeout : ℚ) (listens : Listens start c) (empty : c.queue = []) :
    Effects.Ends (nextDelivery around timeout) c
      (fun result c' => Listens start c' ∧ c'.queue = []
        ∧ ∀ delivery, result = some delivery → Delivered start c' delivery)
      fun _ _ => True := by
  unfold nextDelivery
  rw [ends_bind, ends_now]
  refine ends_loop (Attentive start) (fun d attentive => ?_) (fun _ _ => trivial) _
    ⟨listens.asked _, Or.inl empty⟩
  obtain ⟨listens, queue⟩ := attentive
  unfold takeDelivery
  rw [ends_bind]
  refine (heartbeat_idle listens).imp (fun _ e idle => ?_) fun _ _ _ => trivial
  obtain ⟨listens, same, history⟩ := idle
  rw [ends_bind, ends_get]
  rcases queue with empty | ⟨-, delivery, single, read⟩
  · rw [same, empty]
    dsimp only
    rw [ends_bind]
    refine (now_idle listens).imp (fun _ f idle => ?_) fun _ _ _ => trivial
    obtain ⟨listens, same', -⟩ := idle
    have empty' : f.queue = [] := same'.trans (same.trans empty)
    rw [ends_ite]
    refine ⟨fun _ => ⟨fun value same => ?_, nofun⟩, fun _ => ?_⟩
    · obtain rfl := Option.some_inj.mp same
      exact ⟨listens, empty', nofun⟩
    · rw [ends_bind]
      exact (receiveEvent_attentive listens empty').imp (fun _ g attentive => ⟨nofun, fun _ => attentive⟩)
        fun _ _ _ => trivial
  · rw [same, single]
    dsimp only
    rw [ends_bind, ends_change]
    refine ⟨fun value same => ?_, nofun⟩
    obtain rfl := Option.some_inj.mp same
    refine ⟨⟨listens.more, listens.unclosed, listens.lease, listens.epoch, listens.held⟩, rfl, fun value same => ?_⟩
    obtain rfl := Option.some_inj.mp same
    unfold Delivered
    rw [show e.history = d.history from history]
    exact read

/-- The reports of one delivery were read last. -/
theorem messages_attentive (timeout : ℚ) (listens : Listens start c) (empty : c.queue = []) :
    Effects.Ends (messages around timeout) c
      (fun reports c' => Listens start c' ∧ c'.queue = [] ∧ (reports = [] ∨
        ∃ before packet, c'.history = before ++ [.read packet] ∧ start.history <+: before
          ∧ packet.kind = observationKind ∧ around.decode packet.payload = some reports))
      fun _ _ => True := by
  unfold messages
  rw [ends_bind]
  refine (nextDelivery_attentive timeout listens empty).imp (fun result d known => ?_) fun _ _ _ => trivial
  obtain ⟨listens, empty, read⟩ := known
  cases result with
  | none => exact ⟨listens, empty, Or.inl rfl⟩
  | some delivery =>
      obtain ⟨before, packet, history, more, kind, rfl⟩ := read delivery rfl
      dsimp only [decoded]
      split_ifs
      · exact ⟨listens, empty, Or.inl rfl⟩
      · cases reports : around.decode packet.payload with
        | none => trivial
        | some reports => exact ⟨listens, empty, Or.inr ⟨before, packet, history, more, kind, reports⟩⟩

/-! ### Connecting -/

theorem sendRequest_attentive {kind : Request} {code : UInt32} {data : List UInt8} {token : Option UInt64}
    (listens : Listens start c) (empty : c.queue = []) :
    Effects.Ends (sendRequest around kind code data token) c (fun _ d => Listens start d ∧ d.queue = [])
      fun _ _ => True := by
  unfold sendRequest
  rw [ends_bind]
  refine check_any ?_
  rw [ends_bind, ends_get, ends_ite]
  refine ⟨fun _ => trivial, fun _ => ?_⟩
  simp only [ends_bind, ends_get, ends_change, ends_question]
  cases around.outgoing (c.clock + 1) with
  | failed => trivial
  | incomplete => trivial
  | taken => exact ⟨listens.entered rfl (by simp) rfl rfl rfl, empty⟩

/-- Before the reply to HELLO no delivery is taken. -/
theorem acknowledgement_attentive {kind : Request} {number : ℕ} (unknown : start.epoch = [])
    (listens : Listens start c) (empty : c.queue = []) :
    Effects.Ends (acknowledgement around kind number) c (fun _ d => Listens start d ∧ d.queue = [])
      fun _ _ => True := by
  unfold acknowledgement
  rw [ends_bind]
  refine (now_idle listens).imp (fun _ d idle => ?_) fun _ _ _ => trivial
  refine ends_loop (fun d => Listens start d ∧ d.queue = []) (fun e known => ?_) (fun _ _ => trivial) _
    ⟨idle.1, idle.2.1.trans empty⟩
  obtain ⟨listens, empty⟩ := known
  unfold awaitReply
  rw [ends_bind]
  refine (now_idle listens).imp (fun _ f idle => ?_) fun _ _ _ => trivial
  obtain ⟨listens, same, -⟩ := idle
  have empty : f.queue = [] := same.trans empty
  rw [ends_ite]
  refine ⟨fun _ => trivial, fun _ => ?_⟩
  rw [ends_bind]
  have later : Listens start { f with clock := f.clock + 2 } := listens.asked _
  refine receive_any ⟨nofun, fun _ => ⟨later, empty⟩⟩ fun packet => ?_
  dsimp only
  rw [ends_ite]
  refine ⟨fun reply => ?_, fun plain => ?_⟩
  · rw [ends_ite]
    refine ⟨fun _ => trivial, fun _ => ?_⟩
    rw [ends_ite]
    refine ⟨fun _ => trivial, fun _ =>
      ⟨fun _ _ => ⟨later.entered rfl nofun rfl rfl ?_, empty⟩, nofun⟩⟩
    simp [hearLease, (reply_kinds reply).1]
  · rw [ends_bind]
    refine (event_attentive later empty).imp (fun _ g attentive => ?_) fun _ _ _ => trivial
    refine ⟨nofun, fun _ => ⟨attentive.1, attentive.2.resolve_right fun known => ?_⟩⟩
    exact known.1 (attentive.1.epoch.trans unknown)

/-- A new connection waits for its first delivery; where there is none, nothing stays of it. -/
theorem connect_attentive (reader : Bool) (sources : UInt32) (clock : ℕ) :
    Effects.Ends (connect around reader) { sources := sources, clock := clock }
      (fun _ d => Listens d d ∧ d.queue = [])
      fun trouble d => trouble ≠ .running → leaseSays d.history = false := by
  unfold connect
  cases around.peer with
  | none => exact fun _ => leaseSays_shut _
  | some pid =>
      have listens : Listens { sources := sources, clock := clock } { sources := sources, clock := clock } :=
        ⟨List.prefix_rfl, List.not_mem_nil, rfl, rfl, rfl⟩
      dsimp only
      rw [ends_bind, ends_get, ends_bind, ends_catch]
      have handled (trouble : Trouble) (d : Connection) :
          Effects.Ends (if trouble = .running then throw trouble else fail trouble : Talk _) d
            (fun (reply : UInt32 × UInt64 × List UInt8) e =>
              Effects.Ends (handshake pid reply.1 reply.2.1 reply.2.2) e (fun _ d => Listens d d ∧ d.queue = [])
                fun trouble d => trouble ≠ .running → leaseSays d.history = false)
            fun trouble d => trouble ≠ .running → leaseSays d.history = false := by
        rw [ends_ite]
        exact ⟨fun same other => absurd same other, fun _ _ => leaseSays_shut d⟩
      unfold request
      rw [ends_bind]
      refine (sendRequest_attentive listens rfl).imp (fun number d known => ?_) fun trouble d _ => handled trouble d
      refine (acknowledgement_attentive rfl known.1 known.2).imp (fun reply e known => ?_) fun trouble e _ =>
        handled trouble e
      obtain ⟨code, generation, payload⟩ := reply
      obtain ⟨listens, empty⟩ := known
      show Effects.Ends (handshake pid code generation payload) e _ _
      unfold handshake
      dsimp only
      rw [ends_ite]
      refine ⟨fun _ _ => leaseSays_shut _, fun _ => ?_⟩
      rw [ends_ite]
      refine ⟨fun _ _ => leaseSays_shut _, fun _ => ?_⟩
      rw [ends_bind, ends_change, ends_ite]
      refine ⟨fun _ _ => leaseSays_shut _, fun _ => ?_⟩
      exact ⟨⟨List.prefix_rfl, listens.unclosed, listens.lease, rfl, listens.held⟩, empty⟩

end Connection

/-! ### What is pending -/

/-- A report was read at its place while no lease was held, and no lease has begun since. -/
structure Fresh (around : Surroundings) (history : List Occurrence) (pending : Pending) : Prop where
  read : ∃ packet reports, history[pending.place]? = some (.read packet) ∧ packet.kind = observationKind
    ∧ around.decode packet.payload = some reports ∧ pending.message ∈ reports
  free : leaseSays (history.take pending.place) = false
  calm : ∀ packet, .read packet ∈ history.drop pending.place → ¬ packet.begins

/-- The connection a report was read on has not ended since. -/
def Kept (history : List Occurrence) (pending : Pending) : Prop :=
  .closed ∉ history.drop pending.place

section Later

variable {around : Surroundings} {history events : List Occurrence} {e : Pending}

theorem Fresh.within (fresh : Fresh around history e) : e.place ≤ history.length :=
  have ⟨_, _, known, _⟩ := fresh.read
  (List.getElem?_eq_some_iff.mp known).1.le

/-- A fresh report stays so while no lease begins. -/
theorem Fresh.later (fresh : Fresh around history e) (calm : ∀ packet, .read packet ∈ events → ¬ packet.begins) :
    Fresh around (history ++ events) e := by
  obtain ⟨packet, reports, known, kind, decoded, member⟩ := fresh.read
  refine ⟨⟨packet, reports, ?_, kind, decoded, member⟩, ?_, fun packet member => ?_⟩
  · rw [List.getElem?_append_left (List.getElem?_eq_some_iff.mp known).1, known]
  · rw [List.take_append_of_le_length fresh.within]
    exact fresh.free
  · rw [List.drop_append_of_le_length fresh.within, List.mem_append] at member
    rcases member with before | after
    · exact fresh.calm packet before
    · exact calm packet after

theorem Kept.later (kept : Kept history e) (within : e.place ≤ history.length) (unclosed : .closed ∉ events) :
    Kept (history ++ events) e := by
  unfold Kept
  rw [List.drop_append_of_le_length within, List.mem_append, not_or]
  exact ⟨kept, unclosed⟩

end Later

namespace Watcher

variable {around : Surroundings} {session : Supervision} {w heard : Watcher}

/-- What was read in a round. -/
def seen (w heard : Watcher) : List Occurrence :=
  heard.history.drop w.history.length

/-- A wait for the next delivery that, where reports are pending, does not lose the connection and swallows
no lease: none begins in it whose end is read before the delivery is taken. -/
structure Clear (around : Surroundings) (w : Watcher) : Prop where
  kept : w.pending.items ≠ [] → (hear around w).2 ≠ .lost
  calm : w.pending.items ≠ [] → (hear around w).2 = .serving → leaseSays (hear around w).1.history = false →
    ∀ packet, .read packet ∈ seen w (hear around w).1 → ¬ packet.begins

/-- What was judged was fresh, and on the connection it was read on. -/
def Judged (around : Surroundings) (w : Watcher) : Prop :=
  ∀ j ∈ w.judged, ∀ e ∈ j.reports, Fresh around j.history e ∧ Kept j.history e

/-- A watcher that waits for the next delivery. -/
structure Watches (around : Surroundings) (w : Watcher) : Prop where
  listens : Connection.Listens w.control w.control
  queue : w.control.queue = []
  past : leaseSays w.past = false
  pending : ∀ e ∈ w.pending.items, Fresh around w.history e ∧ Kept w.history e
  judged : Judged around w

/-- Questions leave a watcher waiting. -/
theorem Watches.asked (watches : Watches around w) (n : ℕ) :
    Watches around { w with control := { w.control with clock := n } } :=
  ⟨⟨List.prefix_rfl, watches.listens.unclosed, watches.listens.lease, rfl, watches.listens.held⟩, watches.queue,
    watches.past, watches.pending, watches.judged⟩

/-- A report of the delivery that was read last, while no lease is held. -/
theorem fresh_last {before : List Occurrence} {packet : Raw} {reports : List Message} {report : Message}
    (kind : packet.kind = observationKind) (decoded : around.decode packet.payload = some reports)
    (member : report ∈ reports) (free : leaseSays (before ++ [.read packet]) = false) :
    Fresh around (before ++ [.read packet]) ⟨report, (before ++ [Occurrence.read packet]).length - 1⟩
      ∧ Kept (before ++ [.read packet]) ⟨report, (before ++ [Occurrence.read packet]).length - 1⟩ := by
  have place : (before ++ [Occurrence.read packet]).length - 1 = before.length := by simp
  have other : packet.kind ≠ leaseKind := by
    rw [kind]
    decide
  unfold Kept
  rw [place]
  refine ⟨⟨⟨packet, reports, by simp, kind, decoded, member⟩, ?_, fun packet' member => ?_⟩, ?_⟩
  · rw [leaseSays_append] at free
    rw [List.take_left]
    simpa [hearLease, other] using free
  · rw [List.drop_left, List.mem_singleton] at member
    obtain rfl := Occurrence.read.inj member
    exact fun begins => other begins.1
  · rw [List.drop_left, List.mem_singleton]
    exact nofun

/-- What is pending was pending, or has just been put there. -/
theorem mem_pending {reports : List Message} {place : ℕ} {pending : Keyed Pending.path} {e : Pending}
    (member : e ∈ (reports.foldl (fun pending report => pending.put ⟨report, place⟩) pending).items) :
    e ∈ pending.items ∨ ∃ report ∈ reports, e = ⟨report, place⟩ := by
  induction reports generalizing pending with
  | nil => exact Or.inl member
  | cons report rest ih =>
      rcases ih member with held | ⟨report', member', rfl⟩
      · rcases (Keyed.mem_put _ _ _).mp held with rfl | ⟨before, -⟩
        · exact Or.inr ⟨report, List.mem_cons_self, rfl⟩
        · exact Or.inl before
      · exact Or.inr ⟨report', List.mem_cons_of_mem _ member', rfl⟩

/-- Reports change what is known and what is pending, and the time. -/
theorem absorb_same (reports : List Message) (owned : Bool) (w : Watcher) :
    (∃ n, (absorb around reports owned w).control = { w.control with clock := n })
      ∧ (absorb around reports owned w).past = w.past
      ∧ (absorb around reports owned w).judged = w.judged
      ∧ (absorb around reports owned w).pending = if owned then Keyed.empty
        else (reports.filter fun report => !isMeter report.path).foldl
          (fun pending report => pending.put ⟨report, w.history.length - 1⟩) w.pending := by
  unfold absorb dropped
  cases owned with
  | true =>
      refine ⟨⟨w.control.clock, ?_⟩, ?_, ?_, ?_⟩ <;> simp
  | false =>
      simp only [Bool.false_eq_true, if_false, Bool.not_false, and_true]
      split_ifs
      · exact ⟨⟨w.control.clock + 1, rfl⟩, rfl, rfl, rfl⟩
      · exact ⟨⟨w.control.clock, rfl⟩, rfl, rfl, rfl⟩

/-! ### One round -/

/-- What a wait that takes a delivery, or waits in vain, comes to. -/
structure Heard (around : Surroundings) (w heard : Watcher) (reports : List Message) : Prop where
  listens : Connection.Listens heard.control heard.control
  queue : heard.control.queue = []
  past : heard.past = w.past
  more : heard.history = w.history ++ seen w heard
  unclosed : Occurrence.closed ∉ seen w heard
  judged : heard.judged = w.judged
  pending : heard.pending = if leaseSays heard.control.history then Keyed.empty
    else (reports.filter fun report => !isMeter report.path).foldl
      (fun pending report => pending.put ⟨report, heard.history.length - 1⟩) w.pending
  read : reports = [] ∨ ∃ before packet, heard.control.history = before ++ [.read packet]
    ∧ packet.kind = observationKind ∧ around.decode packet.payload = some reports

/-- How a wait leaves the watcher: it asks whether to stop, and hears, or loses its connection. -/
theorem hear_cases (listens : Connection.Listens w.control w.control) (empty : w.control.queue = []) :
    (hear around w = ({ w with control := { w.control with clock := w.control.clock + 1 } }, .returned))
      ∨ (hear around w = ({ w with control := { w.control with clock := w.control.clock + 1 } }, .running))
      ∨ (∃ control, hear around w = ({ w with control := control }, .lost))
      ∨ ∃ heard reports, hear around w = (heard, .serving) ∧ Heard around w heard reports := by
  have read : Effects.Ends (Connection.messages around slice) _ _ _ :=
    Connection.messages_attentive slice (listens.asked (w.control.clock + 1)) empty
  unfold Effects.Ends at read
  unfold hear ask
  dsimp only
  split_ifs with stopped
  · exact Or.inl rfl
  generalize Connection.messages around slice { w.control with clock := w.control.clock + 1 } = result at read
  obtain ⟨outcome, control⟩ := result
  cases outcome with
  | error trouble =>
      by_cases cut : trouble = .running
      · exact Or.inr (Or.inl (by rw [cut]))
      · exact Or.inr (Or.inr (Or.inl ⟨control, by cases trouble <;> first | rfl | exact absurd rfl cut⟩))
  | ok reports =>
      obtain ⟨listens, empty, last⟩ := read
      obtain ⟨⟨n, same⟩, past, judged, pending⟩ :=
        @absorb_same around reports control.leaseHeld { w with control := control }
      obtain ⟨later, more⟩ := listens.more
      have history : (absorb around reports control.leaseHeld { w with control := control }).history
          = w.history ++ later := by
        unfold Watcher.history
        rw [same, past, List.append_assoc, more]
      have seen : seen w (absorb around reports control.leaseHeld { w with control := control }) = later := by
        unfold seen
        rw [history, List.drop_left]
      refine Or.inr (Or.inr (Or.inr ⟨_, reports, rfl, ?_, ?_, past, ?_, ?_, judged, ?_, ?_⟩))
      · rw [same]
        exact ⟨List.prefix_rfl, listens.unclosed, listens.lease, rfl, listens.held⟩
      · rw [same]
        exact empty
      · rw [seen, history]
      · rw [seen]
        exact fun member => listens.unclosed (more ▸ List.mem_append_right _ member)
      · rw [same, history, ← listens.held]
        rw [show w.history ++ later = ({ w with control := control } : Watcher).history from by
          unfold Watcher.history
          rw [List.append_assoc, more]]
        exact pending
      · rw [same]
        rcases last with nothing | ⟨before, packet, known, -, kind, reports⟩
        · exact Or.inl nothing
        · exact Or.inr ⟨before, packet, known, kind, reports⟩

/-- A wait that swallows no lease keeps only reports of the time since the last lease. -/
theorem heard_watches {reports : List Message} (watches : Watches around w) (hears : Heard around w heard reports)
    (calm : w.pending.items ≠ [] → leaseSays heard.history = false →
      ∀ packet, .read packet ∈ seen w heard → ¬ packet.begins) : Watches around heard := by
  obtain ⟨listens, queue, past, more, unclosed, judged, pending, read⟩ := hears
  have free' : leaseSays heard.past = false := by rw [past, watches.past]
  have whole : leaseSays heard.history = leaseSays heard.control.history := leaseSays_behind free' _
  refine ⟨listens, queue, free', fun e member => ?_, ?_⟩
  · rw [pending] at member
    cases free : leaseSays heard.control.history with
    | true =>
        rw [free, if_pos rfl] at member
        exact absurd member List.not_mem_nil
    | false =>
        rw [free, if_neg Bool.false_ne_true] at member
        rcases mem_pending member with before | ⟨report, filtered, rfl⟩
        · obtain ⟨fresh, kept⟩ := watches.pending e before
          rw [more]
          exact ⟨fresh.later (calm (List.ne_nil_of_mem before) (whole.trans free)),
            kept.later fresh.within unclosed⟩
        · have member := (List.mem_filter.mp filtered).1
          rcases read with nothing | ⟨before, packet, known, kind, decoded⟩
          · rw [nothing] at member
            exact absurd member List.not_mem_nil
          · have last : heard.history = heard.past ++ before ++ [.read packet] := by
              unfold Watcher.history
              rw [known, List.append_assoc]
            rw [last] at whole ⊢
            exact fresh_last kind decoded member (whole.trans free)
  · unfold Judged
    rw [judged]
    exact watches.judged

/-- What is judged was pending, and nothing is then. -/
theorem judge_watches (watches : Watches around w) : Watches around (judge around session w).1 := by
  have idle (n : ℕ) : Connection.Listens { w.control with clock := n } { w.control with clock := n } :=
    (watches.asked n).listens
  unfold judge ask
  dsimp only
  split
  · exact ⟨idle _, watches.queue, watches.past, nofun, watches.judged⟩
  · split_ifs <;> refine ⟨idle _, watches.queue, watches.past, nofun, ?_⟩
    · exact watches.judged
    all_goals
      intro j member
      rcases List.mem_append.mp member with before | now
      · exact watches.judged j before
      · obtain rfl := List.mem_singleton.mp now
        exact watches.pending

theorem review_watches (watches : Watches around w) : Watches around (review around session w).1 := by
  unfold review settled ask
  dsimp only
  split_ifs
  · exact watches
  · exact judge_watches (watches.asked _)
  · exact watches.asked _

/-- A review takes no connection away. -/
theorem review_keeps (w : Watcher) : (review around session w).2 ≠ .lost := by
  unfold review settled judge ask
  dsimp only
  split_ifs <;> (try split) <;> (try split_ifs) <;> simp

/-- A clear round: the watcher still waits, or has lost its connection with nothing pending. -/
theorem round_cases (session : Supervision) (watches : Watches around w) (clear : Clear around w) :
    ((round around session w).2 ≠ .lost ∧ Watches around (round around session w).1)
      ∨ (round around session w).2 = .lost ∧ (round around session w).1.pending.items = []
        ∧ Judged around (round around session w).1 := by
  unfold round
  rcases hear_cases watches.listens watches.queue
    with hears | hears | ⟨control, hears⟩ | ⟨heard, reports, hears, known⟩
  · rw [hears]
    exact Or.inl ⟨nofun, watches.asked _⟩
  · rw [hears]
    exact Or.inl ⟨nofun, watches.asked _⟩
  · have kept := clear.kept
    rw [hears] at kept ⊢
    exact Or.inr ⟨rfl, not_not.mp fun pending => kept pending rfl, watches.judged⟩
  · have calm := clear.calm
    rw [hears] at calm ⊢
    exact Or.inl ⟨review_keeps heard, review_watches (heard_watches watches known fun pending => calm pending rfl)⟩

end Watcher

/-! ### Connection after connection -/

namespace Watch

open Watcher

variable {around : Surroundings} {session : Supervision} {watch : Watch} {w : Watcher}

/-- A watcher without a connection: nothing is pending. -/
structure Waits (around : Surroundings) (w : Watcher) : Prop where
  free : leaseSays w.history = false
  pending : w.pending.items = []
  judged : Judged around w

theorem Waits.asked (waits : Waits around w) (n : ℕ) :
    Waits around { w with control := { w.control with clock := n } } :=
  ⟨waits.free, waits.pending, waits.judged⟩

/-- A closed connection has nothing more to say. -/
theorem leaseSays_closed (w : Watcher) : leaseSays w.shut.history = false := by
  show leaseSays (w.past ++ (w.control.history ++ [.closed])) = false
  rw [← List.append_assoc, leaseSays_append]
  rfl

/-- Another connection starts with nothing pending, and has heard of no lease before its own. -/
theorem connect_cases (session : Supervision) (waits : Waits around w) :
    (∃ w', w.connect around session = (w', .serving) ∧ Watches around w')
      ∨ (∃ w', w.connect around session = (w', .running) ∧ w'.pending.items = [] ∧ Judged around w')
      ∨ ∃ w', w.connect around session = (w', .lost) ∧ Waits around w' := by
  have connected : Effects.Ends (Connection.connect { around with peer := session.peer w.control.clock } true)
      _ _ _ :=
    Connection.connect_attentive true 1 (w.control.clock + 1)
  unfold Effects.Ends at connected
  unfold Watcher.connect ask
  dsimp only
  generalize Connection.connect { around with peer := session.peer w.control.clock } true
    { sources := 1, clock := w.control.clock + 1 } = result at connected
  obtain ⟨outcome, control⟩ := result
  have nothing : ∀ e ∈ w.pending.items, Fresh around (w.history ++ control.history) e
      ∧ Kept (w.history ++ control.history) e := by
    rw [waits.pending]
    exact nofun
  cases outcome with
  | error trouble =>
      by_cases cut : trouble = .running
      · obtain rfl := cut
        exact Or.inr (Or.inl ⟨_, rfl, waits.pending, waits.judged⟩)
      · refine Or.inr (Or.inr ⟨{ w with past := w.history, control := control }, ?_, ?_, waits.pending, waits.judged⟩)
        · cases trouble <;> first | rfl | exact absurd rfl cut
        · exact (leaseSays_behind waits.free _).trans (connected cut)
  | ok =>
      obtain ⟨listens, empty⟩ := connected
      have watches : Watches around { w with past := w.history, control := control } :=
        ⟨listens, empty, waits.free, nothing, waits.judged⟩
      dsimp only
      split_ifs
      · exact Or.inl ⟨_, rfl, watches.asked _⟩
      · exact Or.inr (Or.inr ⟨_, rfl, leaseSays_closed _, waits.pending, waits.judged⟩)

/-- Where nothing is pending, nothing stale is. -/
theorem fresh_nothing (empty : w.pending.items = []) : ∀ e ∈ w.pending.items, Fresh around w.history e := by
  rw [empty]
  exact nofun

/-- What is pending stays fresh when the connection is closed. -/
theorem fresh_shut (fresh : ∀ e ∈ w.pending.items, Fresh around w.history e) :
    ∀ e ∈ w.shut.pending.items, Fresh around w.shut.history e := by
  intro e member
  have closed : w.shut.history = w.history ++ [.closed] := (List.append_assoc _ _ _).symm
  rw [closed]
  exact (fresh e member).later fun packet member => absurd (List.mem_singleton.mp member) nofun

/-- What holds wherever `run` stands. -/
def Holds (around : Surroundings) (watch : Watch) : Prop :=
  match watch.stage with
  | .connecting => Waits around watch.watcher
  | .serving _ => Watches around watch.watcher
  | .ended | .running =>
      Judged around watch.watcher ∧ ∀ e ∈ watch.watcher.pending.items, Fresh around watch.watcher.history e

theorem Holds.judged (holds : Holds around watch) : Judged around watch.watcher := by
  unfold Holds at holds
  split at holds
  · exact Waits.judged holds
  · exact Watches.judged holds
  all_goals exact holds.1

theorem Holds.pending (holds : Holds around watch) :
    ∀ e ∈ watch.watcher.pending.items, Fresh around watch.watcher.history e := by
  unfold Holds at holds
  split at holds
  · exact fresh_nothing (Waits.pending holds)
  · exact fun e member => (Watches.pending holds e member).1
  all_goals exact holds.2

theorem attempt_holds (waits : Waits around watch.watcher) (connecting : watch.stage = .connecting) :
    Holds around (attempt around session watch) := by
  unfold attempt
  split_ifs
  · exact ⟨waits.judged, fresh_nothing waits.pending⟩
  dsimp only [ask]
  split_ifs
  · exact ⟨(waits.asked _).judged, fresh_nothing (waits.asked _).pending⟩
  rcases connect_cases session ((waits.asked _).asked _)
    with ⟨w', goes, watches⟩ | ⟨w', goes, empty, judged⟩ | ⟨w', goes, waits⟩
  · rw [goes]
    exact watches
  · rw [goes]
    exact ⟨judged, fresh_nothing empty⟩
  · rw [goes]
    unfold Holds
    rw [connecting]
    exact waits

theorem bereft_holds (started : ℚ) (pending : watch.watcher.pending.items = [])
    (judged : Judged around watch.watcher) : Holds around (bereft around started watch) := by
  unfold bereft
  dsimp only [ask]
  split_ifs
  · exact ⟨judged, fresh_nothing pending⟩
  all_goals exact ⟨leaseSays_closed _, pending, judged⟩

/-- A step whose wait is clear keeps what holds. -/
theorem step_holds (holds : Holds around watch)
    (clear : ∀ started, watch.stage = .serving started → Clear around watch.watcher) :
    Holds around (step around session watch) := by
  have same := holds
  unfold Holds at holds
  unfold step
  cases stage : watch.stage with
  | connecting =>
      rw [stage] at holds
      exact attempt_holds holds stage
  | serving started =>
      rw [stage] at holds
      have cases := round_cases session holds (clear started stage)
      dsimp only
      generalize watch.watcher.round around session = result at cases
      obtain ⟨w, course⟩ := result
      rcases cases with ⟨other, watches⟩ | ⟨rfl, pending, judged⟩
      · have fresh : ∀ e ∈ w.pending.items, Fresh around w.history e := fun e member => (watches.pending e member).1
        cases course with
        | serving =>
            unfold Holds
            dsimp only
            exact watches
        | lost => exact absurd rfl other
        | returned => exact ⟨watches.judged, fresh_shut fresh⟩
        | running => exact ⟨watches.judged, fresh⟩
      · exact bereft_holds started pending judged
  | ended => exact same
  | running => exact same

theorem after_holds {steps : ℕ} (clear : ∀ k < steps, ∀ started, (after around session k).stage = .serving started →
    Clear around (after around session k).watcher) : Holds around (after around session steps) := by
  induction steps with
  | zero => exact ⟨rfl, rfl, nofun⟩
  | succ steps ih =>
      have before := ih fun k less => clear k (less.trans (Nat.lt_succ_self _))
      unfold after at before clear ⊢
      rw [Function.iterate_succ_apply']
      exact step_holds before (clear steps (Nat.lt_succ_self _))

/-- **What the watcher judges.** Where no wait swallows a lease, and no connection ends while a report is
pending, everything that is pending was read while no lease was held, and no lease has begun since; and so
it was with everything that was judged, which was judged on the connection it was read on. -/
theorem watchSound (around : Surroundings) (session : Supervision) (steps : ℕ)
    (clear : ∀ k < steps, ∀ started, (after around session k).stage = .serving started →
      Clear around (after around session k).watcher) :
    (∀ e ∈ (after around session steps).watcher.pending.items,
        Fresh around (after around session steps).watcher.history e)
      ∧ ∀ j ∈ (after around session steps).watcher.judged, ∀ e ∈ j.reports,
          Fresh around j.history e ∧ Kept j.history e := by
  have holds := after_holds clear
  exact ⟨holds.pending, holds.judged⟩

/-! ### Runs -/

/-- A packet on the wire. -/
def wire (kind request code : UInt32) (payload : List UInt8) : List UInt8 :=
  magic ++ put32 kind ++ put32 request ++ put32 code ++ List.replicate 7 0 ++ [1] ++ payload

/-- The server greets a reader. -/
def greeting : List UInt8 :=
  wire 0x80000001 1 controlOk (List.replicate 16 7 ++ put32 1 ++ put32 1 ++ [0])

/-- A report of the device. -/
def report : List UInt8 :=
  wire observationKind 0 1 [0, 0, 0, 0]

/-- Another client's lease begins. -/
def begun : List UInt8 :=
  wire leaseKind 0 controlBusy []

/-- These packets come at their questions; everything rests from this question on. -/
def resting (packets : List (ℕ × List UInt8)) (rest : ℕ) : Surroundings where
  clock n := n / 40 + if n < rest then 0 else 3
  stop _ := false
  incoming n := (packets.lookup n).elim .quiet (.packet · false)
  outgoing _ := .taken
  peer := some 1
  decode _ := some [⟨.global "volume" none, "f", []⟩]
  patience := 8

/-- A desk that watches. -/
def watchful : Supervision where
  peer _ := some 1
  unchanged _ := true
  desk _ := some { enforce := .watch }
  forgiven _ := false

/-- The lease of another client begins and ends while the watcher waits for the next delivery. -/
def leasing : Surroundings :=
  resting [(8, greeting), (15, report), (24, begun), (28, wire leaseKind 0 controlOk [])] 29

/-- A report from before a lease is judged after the lease. -/
theorem judged_acrossLease :
    ¬ ∀ (around : Surroundings) (session : Supervision) (steps : ℕ),
      ∀ j ∈ (after around session steps).watcher.judged, ∀ e ∈ j.reports, Fresh around j.history e := by
  intro sound
  have run : (after leasing watchful 3).watcher.judged.any fun j =>
      j.reports = [⟨⟨.global "volume" none, "f", []⟩, 2⟩] ∧ j.history[3]? = some (.read (unpack begun)) := by
    decide +kernel
  obtain ⟨j, member, run⟩ := List.any_eq_true.mp run
  obtain ⟨reports, lease⟩ := of_decide_eq_true run
  have fresh := sound leasing watchful 3 j member _ (reports ▸ List.mem_singleton_self _)
  refine fresh.calm (unpack begun) (List.mem_iff_getElem?.mpr ⟨1, ?_⟩) (by decide)
  rw [List.getElem?_drop]
  exact lease

/-- The lease is read in the wait in which the connection ends: the watcher connects again, and judges. -/
example : (after (resting [(8, greeting), (15, report), (24, begun), (28, []), (39, greeting)] 29)
    watchful 5).watcher.judged.any fun j => j.reports.map (·.place) = [2]
      ∧ j.history[3]? = some (.read (unpack begun)) ∧ j.history[4]? = some .closed := by
  decide +kernel

/-- The first connection ends before any report, the second one brings a report. -/
def returning : Surroundings :=
  resting [(8, greeting), (15, []), (26, greeting), (33, report)] 40

/-- The report of the second connection is judged, and it is fresh. -/
theorem watchSound_returning : (after returning watchful 5).failures = 1
    ∧ (after returning watchful 5).watcher.judged.map (·.reports.map (·.place)) = [[6]]
    ∧ ∀ j ∈ (after returning watchful 5).watcher.judged, ∀ e ∈ j.reports,
      Fresh returning j.history e ∧ Kept j.history e := by
  have run : (after returning watchful 5).failures = 1
      ∧ (after returning watchful 5).watcher.judged.map (·.reports.map (·.place)) = [[6]] := by decide +kernel
  have quiet : ∀ k < 5, (after returning watchful k).watcher.pending.items = []
      ∨ (hear returning (after returning watchful k).watcher).2 ≠ .lost
        ∧ seen (after returning watchful k).watcher (hear returning (after returning watchful k).watcher).1 = [] := by
    decide +kernel
  refine ⟨run.1, run.2, (watchSound returning watchful 5 fun k less _ _ => ?_).2⟩
  rcases quiet k less with empty | ⟨kept, nothing⟩
  · exact ⟨fun pending => absurd empty pending, fun pending => absurd empty pending⟩
  · refine ⟨fun _ => kept, fun _ _ _ packet member => ?_⟩
    rw [nothing] at member
    exact absurd member List.not_mem_nil

end Watch

end OscmixDesk.Backend
