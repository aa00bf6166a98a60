/-
**What a turn of the control server keeps.**

A packet that goes out can close a connection, end a lease and broadcast again, so every reply and every
broadcast is a chain of five small changes: a question asked, a packet taken, a slot closed, a lease lost
with its connection, a LEASE event queued. A property those changes keep (`Stable`) is kept by every
flush, disconnect and release (`disconnect_keeps`); one that allows a packet to be queued is kept by its
`enqueue` (`enqueue_keeps`); one that also allows the window events and the deliveries (`Serves`) is kept
by the clock (`controlTick_keeps`).
-/

import OscmixDesk.Model.Server

namespace OscmixDesk.Backend

variable {outside : Outside} {holds : Server → Prop}

/-! ### The small changes -/

/-- The same lease, connections and packets: only clocks and wishes differ. -/
structure Alike (s t : Server) : Prop where
  clients : ∀ i, { t.clients i with refresh := (s.clients i).refresh } = s.clients i
  owner : t.owner = s.owner
  generation : t.generation = s.generation
  observation : t.observation = s.observation
  connections : t.connections = s.connections
  wires : t.wires = s.wires
  executed : t.executed = s.executed
  changes : t.changes = s.changes
  broadcasts : t.broadcasts = s.broadcasts

/-- A property that packets on their way out, lost connections and lost leases keep. -/
structure Stable (holds : Server → Prop) : Prop where
  asks : ∀ s, holds s → holds s.next
  took : ∀ s index connection packet rest, holds s → (s.clients index).fd = some connection →
    (s.clients index).queue = packet :: rest → holds (s.took index connection packet rest)
  close : ∀ s index, holds s → (s.clients index).fd ≠ none → s.owner ≠ some index →
    holds (closeClient index s)
  lose : ∀ s index, holds s → (s.clients index).fd ≠ none → s.owner = some index →
    holds (closeClient index s).released
  event : ∀ s index, holds s → (s.clients index).fd ≠ none → (s.clients index).role ≠ 0 →
    holds (s.push index s.leaseEvent)

theorem alike_next (s : Server) : Alike s s.next :=
  ⟨fun _ => rfl, rfl, rfl, rfl, rfl, rfl, rfl, rfl, rfl⟩

@[simp] theorem closeClient_owner (index : Slot) (s : Server) :
    (closeClient index s).owner = s.owner := by
  unfold closeClient
  cases (s.clients index).fd <;> rfl

@[simp] theorem next_clients (s : Server) : s.next.clients = s.clients := rfl

@[simp] theorem push_fd (index i : Slot) (packet : Packet) (s : Server) :
    ((s.push index packet).clients i).fd = (s.clients i).fd := by
  by_cases same : i = index
  · subst same
    simp [Server.push, Server.modify]
  · simp [Server.push, Server.modify, Function.update_of_ne same]

namespace Stable

theorem next (stable : Stable holds) {s : Server} (held : holds s) : holds s.next :=
  stable.asks s held

/-- What is stable is so where nobody holds the lease. -/
theorem unowned (stable : Stable holds) : Stable fun s => holds s ∧ s.owner = none where
  asks s held := ⟨stable.asks s held.1, held.2⟩
  took s index connection packet rest held fd queue :=
    ⟨stable.took s index connection packet rest held.1 fd queue, held.2⟩
  close s index held fd owner := ⟨stable.close s index held.1 fd owner, by simpa using held.2⟩
  lose s index held fd owner := by simp [held.2] at owner
  event s index held fd role := ⟨stable.event s index held.1 fd role, held.2⟩

end Stable

/-! ### Queues -/

/-- The same lease, windows and connections: only questions were asked and packets taken. -/
structure Drained (s t : Server) : Prop where
  owner : t.owner = s.owner
  generation : t.generation = s.generation
  observation : t.observation = s.observation
  window : t.window = s.window
  changes : t.changes = s.changes
  broadcasts : t.broadcasts = s.broadcasts
  fd : ∀ i, (t.clients i).fd = (s.clients i).fd
  role : ∀ i, (t.clients i).role = (s.clients i).role
  sources : ∀ i, (t.clients i).sources = (s.clients i).sources
  request : ∀ i, (t.clients i).request = (s.clients i).request

namespace Drained

theorem refl (s : Server) : Drained s s :=
  ⟨rfl, rfl, rfl, rfl, rfl, rfl, fun _ => rfl, fun _ => rfl, fun _ => rfl, fun _ => rfl⟩

theorem trans {s t u : Server} (first : Drained s t) (second : Drained t u) : Drained s u where
  owner := second.owner.trans first.owner
  generation := second.generation.trans first.generation
  observation := second.observation.trans first.observation
  window := second.window.trans first.window
  changes := second.changes.trans first.changes
  broadcasts := second.broadcasts.trans first.broadcasts
  fd i := (second.fd i).trans (first.fd i)
  role i := (second.role i).trans (first.role i)
  sources i := (second.sources i).trans (first.sources i)
  request i := (second.request i).trans (first.request i)

theorem next (s : Server) : Drained s s.next :=
  ⟨rfl, rfl, rfl, rfl, rfl, rfl, fun _ => rfl, fun _ => rfl, fun _ => rfl, fun _ => rfl⟩

theorem took (index : Slot) (connection : ℕ) (packet : Packet) (rest : List Packet) (s : Server) :
    Drained s (s.took index connection packet rest) := by
  have same {β : Type} (field : Client → β)
      (blind : ∀ c queue bytes, field { c with queue := queue, bytes := bytes } = field c) (i : Slot) :
      field ((s.took index connection packet rest).clients i) = field (s.clients i) := by
    by_cases at' : i = index
    · subst at'
      simp [Server.took, Server.modify, blind]
    · simp [Server.took, Server.modify, Function.update_of_ne at']
  exact ⟨rfl, rfl, rfl, rfl, rfl, rfl, same Client.fd fun _ _ _ => rfl,
    same Client.role fun _ _ _ => rfl, same Client.sources fun _ _ _ => rfl,
    same Client.request fun _ _ _ => rfl⟩

theorem leaseEvent {s t : Server} (drained : Drained s t) : t.leaseEvent = s.leaseEvent := by
  unfold Server.leaseEvent
  rw [drained.owner, drained.generation]

end Drained

/-- What was sent to a slot. -/
def Server.stream (s : Server) (i : Slot) (connection : ℕ) : List Packet :=
  s.wires connection ++ (s.clients i).queue

section Queues

variable {drop : Slot → Server → Server}

theorem flushQueue_keeps (stable : Stable holds) (dropped : ∀ s i, holds s → holds (drop i s))
    (index : Slot) (connection : ℕ) (queue : List Packet) {s : Server} (held : holds s)
    (fd : (s.clients index).fd = some connection) (same : (s.clients index).queue = queue) :
    holds (flushQueue outside drop index connection queue s) := by
  induction queue generalizing s with
  | nil => exact held
  | cons packet rest ih =>
      unfold flushQueue
      cases outside.send s.asked with
      | taken =>
          refine ih (stable.took _ index connection packet rest (stable.next held) fd same) ?_ ?_
          · simpa [Server.took, Server.modify] using fd
          · simp [Server.took, Server.modify]
      | again => exact stable.next held
      | failed => exact dropped _ _ (stable.next held)

theorem flush_keeps (stable : Stable holds) (dropped : ∀ s i, holds s → holds (drop i s))
    (index : Slot) {s : Server} (held : holds s) : holds (flush outside drop index s) := by
  unfold flush
  cases fd : (s.clients index).fd with
  | none => exact held
  | some connection => exact flushQueue_keeps stable dropped index connection _ held fd rfl

/-- What a disconnect leaves is gone. -/
def Drops (drop : Slot → Server → Server) : Prop :=
  ∀ s index, ((drop index s).clients index).fd = none

theorem flushQueue_drained (drops : Drops drop) (index : Slot) (connection : ℕ)
    (queue : List Packet) (s : Server) :
    ((flushQueue outside drop index connection queue s).clients index).fd = none
      ∨ Drained s (flushQueue outside drop index connection queue s) := by
  induction queue generalizing s with
  | nil => exact Or.inr (Drained.refl s)
  | cons packet rest ih =>
      unfold flushQueue
      cases outside.send s.asked with
      | taken =>
          exact (ih _).imp id fun later =>
            ((Drained.next s).trans (Drained.took index connection packet rest _)).trans later
      | again => exact Or.inr (Drained.next s)
      | failed => exact Or.inl (drops _ _)

theorem flush_drained (drops : Drops drop) (index : Slot) (s : Server) :
    ((flush outside drop index s).clients index).fd = none
      ∨ Drained s (flush outside drop index s) := by
  unfold flush
  cases (s.clients index).fd with
  | none => exact Or.inr (Drained.refl s)
  | some connection => exact flushQueue_drained drops index connection _ s

/-- A flush moves packets along their stream. -/
theorem flushQueue_stream (drops : Drops drop) (index : Slot) (connection : ℕ) (queue : List Packet)
    (s : Server) (same : (s.clients index).queue = queue) :
    ((flushQueue outside drop index connection queue s).clients index).fd = none
      ∨ (flushQueue outside drop index connection queue s).stream index connection
        = s.stream index connection := by
  induction queue generalizing s with
  | nil => exact Or.inr rfl
  | cons packet rest ih =>
      unfold flushQueue
      cases outside.send s.asked with
      | taken =>
          have moved : (s.next.took index connection packet rest).stream index connection
              = s.stream index connection := by
            simp [Server.stream, Server.took, Server.modify, same, Server.next]
          rw [← moved]
          exact ih _ (by simp [Server.took, Server.modify])
      | again => exact Or.inr rfl
      | failed => exact Or.inl (drops _ _)

theorem flush_stream (drops : Drops drop) {index : Slot} {connection : ℕ} {s : Server}
    (fd : (s.clients index).fd = some connection) :
    ((flush outside drop index s).clients index).fd = none
      ∨ (flush outside drop index s).stream index connection = s.stream index connection := by
  unfold flush
  rw [fd]
  exact flushQueue_stream drops index connection _ s rfl

/-- A packet is queued between two flushes: what holds before may differ from what holds after. -/
theorem enqueue_keeps {after : Server → Prop} (before : Stable holds) (later : Stable after)
    (drops : Drops drop) (dropped : ∀ s i, holds s → holds (drop i s))
    (dropped' : ∀ s i, after s → after (drop i s)) {index : Slot} {packet : Packet} {s : Server}
    (weaker : ∀ t, holds t → (t.clients index).fd = none → after t)
    (pushed : ∀ t, holds t → Drained s t → (t.clients index).fd ≠ none →
      packet.payload.length ≤ controlPayload →
      (∀ n, (s.clients index).fd = some n → t.stream index n = s.stream index n) →
      after (t.push index packet))
    (held : holds s) : after (enqueue outside drop index packet s) := by
  have flushed : holds (flush outside drop index s) := flush_keeps before dropped index held
  have drained := @flush_drained outside drop drops index s
  have streams (n : ℕ) := @flush_stream outside drop drops index n s
  unfold enqueue
  generalize flush outside drop index s = middle at flushed drained streams
  by_cases gone : (middle.clients index).fd = none
  · rw [if_pos gone]
    exact weaker _ flushed gone
  · rw [if_neg gone]
    have same : Drained s middle.next := (drained.resolve_left gone).trans (Drained.next middle)
    split_ifs with full
    · exact weaker _ (dropped _ _ flushed) (drops _ _)
    · have fits : packet.payload.length ≤ controlPayload := by
        simp only [Bool.or_eq_true, decide_eq_true_eq, not_or, not_lt] at full
        exact full.1.1
      exact flush_keeps later dropped' index (pushed _ (before.next flushed) same gone fits
        fun n fd => (streams n fd).resolve_left gone)
    · exact weaker _ (dropped _ _ (before.next flushed)) (drops _ _)

/-- A packet whose queueing a property allows. -/
theorem enqueue_stable (stable : Stable holds) (drops : Drops drop)
    (dropped : ∀ s i, holds s → holds (drop i s)) {index : Slot} {packet : Packet} {s : Server}
    (pushed : ∀ t, holds t → Drained s t → (t.clients index).fd ≠ none →
      packet.payload.length ≤ controlPayload → holds (t.push index packet))
    (held : holds s) : holds (enqueue outside drop index packet s) :=
  enqueue_keeps stable stable drops dropped dropped (fun _ held _ => held)
    (fun t held drained fd fits _ => pushed t held drained fd fits) held

theorem event_keeps (stable : Stable holds) (drops : Drops drop)
    (dropped : ∀ s i, holds s → holds (drop i s)) {index : Slot} {s : Server} (held : holds s)
    (role : (s.clients index).role ≠ 0) :
    holds (enqueue outside drop index s.leaseEvent s) := by
  refine enqueue_stable stable drops dropped (fun t held drained fd _ => ?_) held
  rw [← drained.leaseEvent]
  exact stable.event t index held fd (by rwa [drained.role])

theorem stateChanged_keeps (stable : Stable holds) (drops : Drops drop)
    (dropped : ∀ s i, holds s → holds (drop i s)) {s : Server} (held : holds s) :
    holds (stateChanged outside drop s) := by
  unfold stateChanged
  refine List.foldlRecOn _ _ held fun t held i _ => ?_
  by_cases told : (t.clients i).fd ≠ none ∧ (t.clients i).role ≠ 0
  · rw [if_pos told]
    exact event_keeps stable drops dropped held told.2
  · rwa [if_neg told]

end Queues

/-! ### Disconnects -/

theorem closeClient_drops : Drops closeClient := by
  intro s index
  unfold closeClient
  cases fd : (s.clients index).fd with
  | none => exact fd
  | some _ => simp [Server.modify]

theorem closeClient_keeps (stable : Stable holds) (s : Server) (index : Slot)
    (held : holds s ∧ s.owner = none) : holds (closeClient index s) ∧ (closeClient index s).owner = none := by
  by_cases gone : (s.clients index).fd = none
  · unfold closeClient
    rwa [gone]
  · exact stable.unowned.close s index held gone (by simp [held.2])

theorem releaseOwner_keeps (stable : Stable holds) {s : Server} (held : holds s.released) :
    holds (releaseOwner outside s) :=
  (stateChanged_keeps stable.unowned closeClient_drops (closeClient_keeps stable)
    (s := s.released) ⟨held, rfl⟩).1

theorem disconnect_keeps (stable : Stable holds) (s : Server) (index : Slot) (held : holds s) :
    holds (disconnect outside index s) := by
  unfold disconnect
  cases fd : (s.clients index).fd with
  | none => exact held
  | some connection =>
      have connected : (s.clients index).fd ≠ none := by simp [fd]
      by_cases owner : s.owner = some index
      · show holds (if s.owner = some index then _ else _)
        rw [if_pos owner]
        exact releaseOwner_keeps stable (stable.lose s index held connected owner)
      · show holds (if s.owner = some index then _ else _)
        rw [if_neg owner]
        exact stable.close s index held connected owner

/-- A connection that is gone stays gone. -/
theorem stable_gone (index : Slot) : Stable fun s => (s.clients index).fd = none where
  asks s held := held
  took s i connection packet rest held fd queue := by
    rw [(Drained.took i connection packet rest s).fd]
    exact held
  close s i held fd owner := by
    by_cases same : index = i
    · subst same
      exact closeClient_drops s index
    · unfold closeClient
      cases (s.clients i).fd with
      | none => exact held
      | some _ => simpa [Server.modify, Function.update_of_ne same] using held
  lose s i held fd owner := by
    by_cases same : index = i
    · subst same
      exact closeClient_drops s index
    · unfold closeClient
      cases (s.clients i).fd with
      | none => exact held
      | some _ => simpa [Server.modify, Server.released, Function.update_of_ne same] using held
  event s i held fd role := by rwa [push_fd]

theorem disconnect_drops : Drops (disconnect outside) := by
  intro s index
  unfold disconnect
  cases fd : (s.clients index).fd with
  | none => exact fd
  | some connection =>
      show ((if s.owner = some index then _ else _ : Server).clients index).fd = none
      by_cases owner : s.owner = some index
      · rw [if_pos owner]
        exact releaseOwner_keeps (stable_gone index) (closeClient_drops s index)
      · rw [if_neg owner]
        exact closeClient_drops s index

/-- Where nobody holds the lease, a disconnect only closes. -/
theorem disconnect_unowned {s : Server} (owner : s.owner = none) (index : Slot) :
    disconnect outside index s = closeClient index s := by
  unfold disconnect
  cases fd : (s.clients index).fd with
  | none =>
      unfold closeClient
      rw [fd]
  | some connection => simp [owner]

section Unowned

variable {s : Server}

theorem flushQueue_unowned (index : Slot) (connection : ℕ) (queue : List Packet)
    (owner : s.owner = none) : flushQueue outside closeClient index connection queue s
      = flushQueue outside (disconnect outside) index connection queue s := by
  induction queue generalizing s with
  | nil => rfl
  | cons packet rest ih =>
      unfold flushQueue
      cases outside.send s.asked with
      | taken => exact ih owner
      | again => rfl
      | failed => exact (disconnect_unowned (s := s.next) owner index).symm

theorem flush_unowned (index : Slot) (owner : s.owner = none) :
    flush outside closeClient index s = flush outside (disconnect outside) index s := by
  unfold flush
  cases (s.clients index).fd with
  | none => rfl
  | some connection => exact flushQueue_unowned index connection _ owner

theorem stable_unowned : Stable fun s => s.owner = none where
  asks _ held := held
  took _ _ _ _ _ held _ _ := held
  close _ _ held _ _ := by simpa using held
  lose _ _ _ _ _ := rfl
  event _ _ held _ _ := held

theorem enqueue_unowned (index : Slot) (packet : Packet) (owner : s.owner = none) :
    enqueue outside closeClient index packet s
      = enqueue outside (disconnect outside) index packet s := by
  have later : (flush outside (disconnect outside) index s).owner = none :=
    flush_keeps stable_unowned (disconnect_keeps stable_unowned) index owner
  unfold enqueue
  rw [flush_unowned index owner]
  generalize flush outside (disconnect outside) index s = middle at later
  dsimp only
  rw [disconnect_unowned later, disconnect_unowned (s := middle.next) later,
    flush_unowned (s := middle.next.push index packet) index later]

/-- The broadcast of a release disconnects as any other does: the recursion of the source. -/
theorem releaseOwner_eq (s : Server) :
    releaseOwner outside s = stateChanged outside (disconnect outside) s.released := by
  have same (slots : List Slot) (t : Server) (owner : t.owner = none) :
      slots.foldl (fun s i => if (s.clients i).fd ≠ none ∧ (s.clients i).role ≠ 0 then
          enqueue outside closeClient i s.leaseEvent s else s) t
        = slots.foldl (fun s i => if (s.clients i).fd ≠ none ∧ (s.clients i).role ≠ 0 then
          enqueue outside (disconnect outside) i s.leaseEvent s else s) t := by
    induction slots generalizing t with
    | nil => rfl
    | cons i rest ih =>
        rw [List.foldl_cons, List.foldl_cons, enqueue_unowned i _ owner]
        refine ih _ ?_
        by_cases told : (t.clients i).fd ≠ none ∧ (t.clients i).role ≠ 0
        · rw [if_pos told]
          exact event_keeps stable_unowned disconnect_drops (disconnect_keeps stable_unowned) owner
            told.2
        · rwa [if_neg told]
  exact same _ _ rfl

end Unowned

/-! ### Windows, deliveries and the clock -/

/-- The server as a window opens. -/
def Server.opened (until' : ℚ) (s : Server) : Server :=
  { s.next with
    clients := fun i => { s.clients i with refresh := false }
    refreshUntil := until'
    refreshing := true
    window := s.window + 1 }

/-- A stable property that the windows and the deliveries of the OSC handler keep too. -/
structure Serves (outside : Outside) (holds : Server → Prop) : Prop extends Stable holds where
  opens : ∀ s until', holds s → holds (s.opened until')
  closes : ∀ s, holds s → holds { s with refreshing := false }
  window : ∀ s index code, holds s → (s.clients index).fd ≠ none → (s.clients index).role ≠ 0 →
    code = controlOk ∨ code = controlBusy → holds (s.push index ⟨.window, 0, code, s.window, .none⟩)
  handled : ∀ n data delivery s, delivery ∈ (outside.command n data).broadcasts → holds s →
    holds (controlBroadcast outside delivery.1 delivery.2 s)

/-- A stable property that the clock keeps, if a refresh does. -/
structure Ticks (outside : Outside) (holds : Server → Prop) : Prop extends Stable holds where
  closes : ∀ s, holds s → holds { s with refreshing := false }
  window : ∀ s index code, holds s → (s.clients index).fd ≠ none → (s.clients index).role ≠ 0 →
    code = controlOk ∨ code = controlBusy → holds (s.push index ⟨.window, 0, code, s.window, .none⟩)
  refreshes : ∀ s, holds s → holds (refresh outside s)

theorem Stable.windowChanged_keeps (stable : Stable holds) {code : UInt32}
    (window : ∀ s index, holds s → (s.clients index).fd ≠ none → (s.clients index).role ≠ 0 →
      holds (s.push index ⟨.window, 0, code, s.window, .none⟩)) {s : Server} (held : holds s) :
    holds (windowChanged outside code s) := by
  unfold windowChanged
  refine List.foldlRecOn _ _ held fun t held i _ => ?_
  by_cases told : (t.clients i).fd ≠ none ∧ (t.clients i).role ≠ 0
  · rw [if_pos told]
    refine enqueue_stable stable disconnect_drops (disconnect_keeps stable) (fun u held drained fd _ => ?_) held
    rw [← drained.window]
    exact window u i held fd (by rw [drained.role]; exact told.2)
  · rwa [if_neg told]

namespace Ticks

theorem tickClients_keeps (ticks : Ticks outside holds) (current : ℚ) (slots : List Slot)
    {s : Server} (held : holds s) : holds (tickClients outside current slots s) := by
  induction slots generalizing s with
  | nil => exact held
  | cons i rest ih =>
      unfold tickClients
      split_ifs
      · exact ih held
      · exact ih (disconnect_keeps ticks.toStable s i held)
      · exact ticks.refreshes s held
      · exact ih held

theorem expireLease_keeps (ticks : Ticks outside holds) (current : ℚ) {s : Server}
    (held : holds s) : holds (expireLease outside current s) := by
  unfold expireLease
  cases s.owner with
  | none => exact held
  | some owner =>
      by_cases expired : current ≥ s.idleUntil ∨ current ≥ s.hardUntil
      · show holds (if _ then _ else _)
        rw [if_pos expired]
        exact disconnect_keeps ticks.toStable s owner held
      · show holds (if _ then _ else _)
        rwa [if_neg expired]

theorem closeWindow_keeps (ticks : Ticks outside holds) (current : ℚ) {s : Server}
    (held : holds s) : holds (closeWindow outside current s) := by
  unfold closeWindow
  by_cases due : s.refreshing ∧ current ≥ s.refreshUntil
  · rw [if_pos due]
    exact ticks.toStable.windowChanged_keeps
      (fun t i held fd role => ticks.window t i controlOk held fd role (Or.inl rfl)) (ticks.closes s held)
  · rwa [if_neg due]

theorem controlTick_keeps (ticks : Ticks outside holds) {s : Server} (held : holds s) :
    holds (controlTick outside s) :=
  ticks.tickClients_keeps _ _
    (ticks.closeWindow_keeps _ (ticks.expireLease_keeps _ (ticks.toStable.next held)))

end Ticks

namespace Serves

theorem deliver_keeps (serves : Serves outside holds) (n : ℕ) (data : List UInt8) {s : Server}
    (held : holds s) : holds (deliver outside (outside.command n data).broadcasts s) := by
  unfold deliver
  exact List.foldlRecOn _ _ held fun t held delivery member =>
    serves.handled n data delivery t member held

theorem refresh_keeps (serves : Serves outside holds) {s : Server} (held : holds s) :
    holds (refresh outside s) := by
  unfold refresh
  refine serves.deliver_keeps _ _ (serves.toStable.next ?_)
  exact serves.toStable.windowChanged_keeps
    (fun t i held fd role => serves.window t i controlBusy held fd role (Or.inr rfl)) (serves.opens s _ held)

theorem ticks (serves : Serves outside holds) : Ticks outside holds where
  toStable := serves.toStable
  closes := serves.closes
  window := serves.window
  refreshes _ held := serves.refresh_keeps held

theorem controlTick_keeps (serves : Serves outside holds) {s : Server} (held : holds s) :
    holds (controlTick outside s) :=
  serves.ticks.controlTick_keeps held

end Serves

end OscmixDesk.Backend
