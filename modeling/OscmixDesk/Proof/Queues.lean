/-
**The queues of the control server.**

Every enqueue, flush, broadcast and disconnect is a chain of five small changes (`Lasting`), re-entered where
a packet that fails ends a lease in the middle of a broadcast (`releaseOwner_disconnects`). They keep the rings,
the counters and the memory in agreement (`Accounted`) and what a connection is sent in line with what was
accepted for it (`Traced`), so every run does (`queuesSound`). Seen as lists these are the queues of
`Model.Server` (`drops_disconnect`, `view_enqueue`, `view_flush`).
-/

import OscmixDesk.Model.Queues

namespace OscmixDesk.Backend.Store

variable {outside : Outside} {holds : Store → Prop}

/-! ### What a turn keeps -/

/-- A property that the small changes of a turn keep: a question asked, a packet taken, a slot closed, a
packet queued where there is room, a lease lost. -/
structure Lasting (holds : Store → Prop) : Prop where
  next : ∀ st, holds st → holds st.next
  took : ∀ st index connection, holds st → (st.server.clients index).fd = some connection →
    (st.memory.rings index).count ≠ 0 → holds (st.tookFirst index connection)
  close : ∀ st index, holds st → (st.server.clients index).fd ≠ none → holds (closeClient index st)
  push : ∀ st index connection packet, holds st → (st.server.clients index).fd = some connection →
    (st.memory.rings index).count ≠ queuePackets →
    (st.server.clients index).bytes + packet.len ≤ queueBytes → holds (st.push index connection packet)
  released : ∀ st, holds st → holds st.released

@[simp] theorem next_memory (st : Store) : st.next.memory = st.memory := rfl

theorem tookFirst_fd (index i : Slot) (connection : ℕ) (st : Store) :
    ((st.tookFirst index connection).server.clients i).fd = (st.server.clients i).fd := by
  by_cases same : i = index
  · subst same
    simp [tookFirst, Server.modify]
  · simp [tookFirst, Server.modify, Function.update_of_ne same]

theorem tookFirst_count (index : Slot) (connection : ℕ) (st : Store) :
    ((st.tookFirst index connection).memory.rings index).count = (st.memory.rings index).count - 1 := by
  simp [tookFirst, Memory.freeFirst, RingBuffer.pop]

section Lasting

variable {drop : Slot → Store → Store}

theorem flushQueue_keeps (lasting : Lasting holds) (dropped : ∀ st i, holds st → holds (drop i st))
    (index : Slot) (connection n : ℕ) {st : Store} (held : holds st)
    (fd : (st.server.clients index).fd = some connection) (count : (st.memory.rings index).count = n) :
    holds (flushQueue outside drop index connection n st) := by
  induction n generalizing st with
  | zero => exact held
  | succ n ih =>
      unfold flushQueue
      cases outside.send st.server.asked with
      | taken =>
          refine ih (lasting.took st.next index connection (lasting.next st held) fd (by simp [count])) ?_ ?_
          · rw [tookFirst_fd]
            exact fd
          · rw [tookFirst_count, next_memory, count, Nat.add_sub_cancel]
      | again => exact lasting.next st held
      | failed => exact dropped _ index (lasting.next st held)

theorem flush_keeps (lasting : Lasting holds) (dropped : ∀ st i, holds st → holds (drop i st)) (index : Slot)
    {st : Store} (held : holds st) : holds (flush outside drop index st) := by
  unfold flush
  split
  · exact held
  next connection fd => exact flushQueue_keeps lasting dropped index connection _ held fd rfl

theorem enqueue_keeps (lasting : Lasting holds) (dropped : ∀ st i, holds st → holds (drop i st)) (index : Slot)
    (packet : Packet) {st : Store} (held : holds st) : holds (enqueue outside drop index packet st) := by
  have flushed := @flush_keeps outside _ drop lasting dropped index _ held
  unfold enqueue
  dsimp only
  generalize flush outside drop index st = st at flushed
  split
  · exact flushed
  next connection fd =>
    split
    · exact dropped _ index flushed
    next fits =>
      simp only [Bool.or_eq_true, decide_eq_true_eq, beq_iff_eq, not_or, not_lt] at fits
      obtain ⟨⟨-, room⟩, bytes⟩ := fits
      split
      · refine flush_keeps lasting dropped index ?_
        refine lasting.push st.next index connection packet (lasting.next st flushed) fd room ?_
        rw [Packet.len, ← Nat.add_assoc]
        exact bytes
      · exact dropped _ index (lasting.next st flushed)

theorem broadcast_keeps (lasting : Lasting holds) (dropped : ∀ st i, holds st → holds (drop i st))
    (hears : Client → Bool) (packet : Server → Packet) {st : Store} (held : holds st) :
    holds (broadcast outside drop hears packet st) := by
  refine List.foldlRecOn (List.finRange 16) _ held fun st held i _ => ?_
  split
  · exact enqueue_keeps lasting dropped i _ held
  · exact held

theorem closeClient_keeps (lasting : Lasting holds) (index : Slot) {st : Store} (held : holds st) :
    holds (closeClient index st) := by
  by_cases fd : (st.server.clients index).fd = none
  · unfold closeClient
    rw [fd]
    exact held
  · exact lasting.close st index held fd

theorem releaseOwner_keeps (lasting : Lasting holds) {st : Store} (held : holds st) :
    holds (releaseOwner outside st) := by
  unfold releaseOwner stateChanged
  exact broadcast_keeps lasting (fun _ i held => closeClient_keeps lasting i held) _ _ (lasting.released st held)

theorem disconnect_keeps (lasting : Lasting holds) (index : Slot) {st : Store} (held : holds st) :
    holds (disconnect outside index st) := by
  unfold disconnect
  split
  · exact held
  · split
    · exact releaseOwner_keeps lasting (closeClient_keeps lasting index held)
    · exact closeClient_keeps lasting index held

end Lasting

/-! ### The recursion of the source -/

section Unowned

variable {st : Store}

/-- Where nobody holds the lease, a disconnect only closes. -/
theorem disconnect_unowned (owner : st.server.owner = none) (index : Slot) :
    disconnect outside index st = closeClient index st := by
  unfold disconnect
  cases fd : (st.server.clients index).fd with
  | none =>
      unfold closeClient
      rw [fd]
  | some connection => simp [owner]

theorem closeClient_owner (index : Slot) (st : Store) :
    (closeClient index st).server.owner = st.server.owner := by
  unfold closeClient
  cases (st.server.clients index).fd <;> rfl

theorem unowned_lasting : Lasting fun st => st.server.owner = none where
  next _ owner := owner
  took _ _ _ owner _ _ := owner
  close st index owner _ := (closeClient_owner index st).trans owner
  push _ _ _ _ owner _ _ _ := owner
  released _ _ := rfl

theorem flushQueue_unowned (index : Slot) (connection n : ℕ) (owner : st.server.owner = none) :
    flushQueue outside closeClient index connection n st =
      flushQueue outside (disconnect outside) index connection n st := by
  induction n generalizing st with
  | zero => rfl
  | succ n ih =>
      unfold flushQueue
      cases outside.send st.server.asked with
      | taken => exact ih owner
      | again => rfl
      | failed => exact (@disconnect_unowned _ st.next owner index).symm

theorem flush_unowned (index : Slot) (owner : st.server.owner = none) :
    flush outside closeClient index st = flush outside (disconnect outside) index st := by
  unfold flush
  cases (st.server.clients index).fd with
  | none => rfl
  | some connection => exact flushQueue_unowned index connection _ owner

theorem enqueue_unowned (index : Slot) (packet : Packet) (owner : st.server.owner = none) :
    enqueue outside closeClient index packet st = enqueue outside (disconnect outside) index packet st := by
  have later : (flush outside (disconnect outside) index st).server.owner = none :=
    flush_keeps unowned_lasting (fun _ i held => disconnect_keeps unowned_lasting i held) index owner
  unfold enqueue
  rw [flush_unowned index owner]
  generalize flush outside (disconnect outside) index st = middle at later
  dsimp only
  cases fd : (middle.server.clients index).fd with
  | none => rfl
  | some connection =>
      dsimp only
      rw [disconnect_unowned later, @disconnect_unowned _ middle.next later,
        @flush_unowned _ (middle.next.push index connection packet) index later]

/-- The broadcast of a release disconnects as any other does. -/
theorem releaseOwner_disconnects (st : Store) :
    releaseOwner outside st = stateChanged outside (disconnect outside) st.released := by
  have same (slots : List Slot) (st : Store) (owner : st.server.owner = none) :
      slots.foldl (fun st i =>
        if (st.server.clients i).fd ≠ none ∧ decide ((st.server.clients i).role ≠ 0) = true then
          enqueue outside closeClient i st.server.leaseEvent st else st) st =
      slots.foldl (fun st i =>
        if (st.server.clients i).fd ≠ none ∧ decide ((st.server.clients i).role ≠ 0) = true then
          enqueue outside (disconnect outside) i st.server.leaseEvent st else st) st := by
    induction slots generalizing st with
    | nil => rfl
    | cons i rest ih =>
        rw [List.foldl_cons, List.foldl_cons, enqueue_unowned i _ owner]
        refine ih _ ?_
        split
        · exact enqueue_keeps unowned_lasting (fun _ i held => disconnect_keeps unowned_lasting i held) i _ owner
        · exact owner
  exact same _ _ rfl

end Unowned

/-! ### The invariant -/

/-- Rings, counters and memory agree. -/
structure Accounted (st : Store) : Prop where
  fits : ∀ i, (st.memory.rings i).Fits queuePackets
  idle : ∀ i, (st.server.clients i).fd = none → st.memory.live i = []
  bytes : ∀ i, (st.server.clients i).bytes = ((st.memory.live i).map st.memory.len).sum
  bound : ∀ i, (st.server.clients i).bytes ≤ queueBytes
  /-- Every allocation is freed once, or queued once. -/
  each : (st.memory.freed ++ (List.finRange 16).flatMap st.memory.live).Perm (List.range st.memory.packets.length)

/-- What was accepted for a connection, and what it was sent. -/
structure Traced (st : Store) : Prop where
  /-- What was not sent is queued. -/
  whole : ∀ i connection, (st.server.clients i).fd = some connection →
    st.memory.accepted connection = st.memory.sent connection ++ st.memory.live i
  front : ∀ connection, st.memory.sent connection <+: st.memory.accepted connection
  known : ∀ i connection, (st.server.clients i).fd = some connection → connection < st.server.connections
  alone : ∀ i j connection, (st.server.clients i).fd = some connection →
    (st.server.clients j).fd = some connection → i = j
  unused : ∀ connection, st.server.connections ≤ connection → st.memory.accepted connection = []
  allocated : ∀ connection, ∀ address ∈ st.memory.accepted connection, address < st.memory.packets.length
  once : ∀ connection, (st.memory.accepted connection).Nodup
  apart : ∀ connection other, ∀ address ∈ st.memory.accepted connection,
    address ∈ st.memory.accepted other → connection = other

/-- The queues, one slot's in front. -/
theorem live_split (live : Slot → List ℕ) (index : Slot) :
    ((List.finRange 16).flatMap live).Perm (live index ++ ((List.finRange 16).erase index).flatMap live) :=
  (List.perm_cons_erase (List.mem_finRange index)).flatMap_right live

theorem others_congr {live live' : Slot → List ℕ} {index : Slot}
    (same : ∀ i, i ≠ index → live' i = live i) :
    ((List.finRange 16).erase index).flatMap live' = ((List.finRange 16).erase index).flatMap live := by
  refine List.flatMap_congr fun i member => same i ?_
  exact ((List.nodup_finRange 16).mem_erase_iff.mp member).1

/-- Where one queue changes, so does what is queued. -/
theorem each_of_change {freed freed' : List ℕ} {live live' : Slot → List ℕ} {n n' : ℕ} (index : Slot)
    (each : (freed ++ (List.finRange 16).flatMap live).Perm (List.range n))
    (same : ∀ i, i ≠ index → live' i = live i)
    (change : ∀ rest, (freed ++ (live index ++ rest)).Perm (List.range n) →
      (freed' ++ (live' index ++ rest)).Perm (List.range n')) :
    (freed' ++ (List.finRange 16).flatMap live').Perm (List.range n') := by
  have before := ((live_split live index).append_left freed).symm.trans each
  refine ((live_split live' index).append_left freed').trans ?_
  rw [others_congr same]
  exact change _ before

/-! ### A packet taken -/

section Took

variable {st : Store} {index : Slot} {connection : ℕ}

theorem tookFirst_live : (st.tookFirst index connection).memory.live index =
    ((st.memory.rings index).pop queuePackets).contents queuePackets := by
  simp [tookFirst, Memory.freeFirst, Memory.live]

theorem tookFirst_others {i : Slot} (apart : i ≠ index) :
    (st.tookFirst index connection).memory.rings i = st.memory.rings i ∧
      ((st.tookFirst index connection).server.clients i).bytes = (st.server.clients i).bytes := by
  simp [tookFirst, Memory.freeFirst, Server.modify, Function.update_of_ne apart]

theorem Accounted.popped (accounted : Accounted st) (held : (st.memory.rings index).count ≠ 0) :
    st.memory.live index = (st.memory.rings index).first :: (st.tookFirst index connection).memory.live index := by
  rw [tookFirst_live]
  exact RingBuffer.contents_pop (accounted.fits index) held

theorem Accounted.took (accounted : Accounted st) (fd : (st.server.clients index).fd = some connection)
    (held : (st.memory.rings index).count ≠ 0) : Accounted (st.tookFirst index connection) := by
  have popped := @Accounted.popped st index connection accounted held
  have mine : ((st.tookFirst index connection).server.clients index).bytes =
      (st.server.clients index).bytes - st.memory.len (st.memory.rings index).first := by
    simp [tookFirst, Server.modify]
  have live {i : Slot} (apart : i ≠ index) : (st.tookFirst index connection).memory.live i = st.memory.live i :=
    congrArg (RingBuffer.contents queuePackets) (tookFirst_others apart).1
  constructor
  · intro i
    by_cases same : i = index
    · subst same
      simpa [tookFirst, Memory.freeFirst] using (accounted.fits i).pop
    · rw [(tookFirst_others same).1]
      exact accounted.fits i
  · intro i closed
    rw [tookFirst_fd] at closed
    have apart : i ≠ index := fun same => by simp [same, fd] at closed
    rw [live apart]
    exact accounted.idle i closed
  · intro i
    show _ = (List.map st.memory.len _).sum
    by_cases same : i = index
    · have before := accounted.bytes index
      rw [popped, List.map_cons, List.sum_cons] at before
      rw [same, mine, before, Nat.add_sub_cancel_left]
    · rw [(tookFirst_others same).2, live same]
      exact accounted.bytes i
  · intro i
    by_cases same : i = index
    · rw [same, mine]
      exact Nat.le_trans (Nat.sub_le _ _) (accounted.bound index)
    · rw [(tookFirst_others same).2]
      exact accounted.bound i
  · refine each_of_change index accounted.each (fun i apart => live apart) fun rest before => ?_
    rw [popped] at before
    show (st.memory.freed ++ [(st.memory.rings index).first] ++ _).Perm _
    rw [List.append_assoc]
    exact before

theorem Traced.took (traced : Traced st) (accounted : Accounted st)
    (fd : (st.server.clients index).fd = some connection) (held : (st.memory.rings index).count ≠ 0) :
    Traced (st.tookFirst index connection) := by
  have mine : (st.tookFirst index connection).memory.sent connection =
      st.memory.sent connection ++ [(st.memory.rings index).first] := by
    simp [tookFirst, Memory.freeFirst]
  have theirs {other : ℕ} (apart : other ≠ connection) :
      (st.tookFirst index connection).memory.sent other = st.memory.sent other := by
    simp [tookFirst, Memory.freeFirst, Function.update_of_ne apart]
  have whole : st.memory.accepted connection = (st.tookFirst index connection).memory.sent connection ++
      (st.tookFirst index connection).memory.live index := by
    rw [mine, List.append_assoc, List.singleton_append, ← accounted.popped held]
    exact traced.whole index connection fd
  refine ⟨?_, ?_, ?_, ?_, traced.unused, traced.allocated, traced.once, traced.apart⟩
  · intro i other other_fd
    rw [tookFirst_fd] at other_fd
    by_cases same : other = connection
    · subst same
      rw [traced.alone i index other other_fd fd]
      exact whole
    · have apart : i ≠ index := fun at_index => same (Option.some.inj (other_fd.symm.trans (at_index ▸ fd)))
      rw [theirs same]
      refine (traced.whole i other other_fd).trans (congrArg _ ?_)
      exact (congrArg (RingBuffer.contents queuePackets) (tookFirst_others apart).1).symm
  · intro other
    by_cases same : other = connection
    · subst same
      exact ⟨_, whole.symm⟩
    · rw [theirs same]
      exact traced.front other
  · intro i other other_fd
    rw [tookFirst_fd] at other_fd
    exact traced.known i other other_fd
  · intro i j other other_fd other_fd'
    rw [tookFirst_fd] at other_fd other_fd'
    exact traced.alone i j other other_fd other_fd'

end Took

/-! ### A connection closed -/

/-- A queue that is freed as a whole: nothing else changes. -/
structure Emptied (index : Slot) (m m' : Memory) : Prop where
  fits : (m'.rings index).Fits queuePackets
  live : m'.live index = []
  others : ∀ i, i ≠ index → m'.rings i = m.rings i
  freed : m'.freed = m.freed ++ m.live index
  packets : m'.packets = m.packets
  accepted : m'.accepted = m.accepted
  sent : m'.sent = m.sent

theorem freeQueue_empties (index : Slot) (n : ℕ) {m : Memory} (fits : (m.rings index).Fits queuePackets)
    (count : (m.rings index).count = n) : Emptied index m (m.freeQueue index n) := by
  induction n generalizing m with
  | zero =>
      have empty : m.live index = [] := RingBuffer.contents_eq_nil.mpr count
      exact ⟨fits, empty, fun _ _ => rfl, by rw [empty, List.append_nil]; rfl, rfl, rfl, rfl⟩
  | succ n ih =>
      have popped : m.live index = (m.rings index).first :: (m.freeFirst index).live index := by
        simpa [Memory.live, Memory.freeFirst] using RingBuffer.contents_pop fits (by omega)
      obtain ⟨fits', live, others, freed, packets, accepted, sent⟩ := @ih (m.freeFirst index)
        (by simpa [Memory.freeFirst] using fits.pop) (by simp [Memory.freeFirst, RingBuffer.pop, count])
      refine ⟨fits', live, fun i apart => ?_, ?_, packets, accepted, sent⟩
      · rw [Memory.freeQueue, others i apart]
        simp [Memory.freeFirst, Function.update_of_ne apart]
      · rw [Memory.freeQueue, freed, popped]
        show m.freed ++ [(m.rings index).first] ++ _ = _
        rw [List.append_assoc, List.singleton_append]

section Close

variable {st : Store} {index : Slot}

/-- What closing a connection comes to. -/
structure Closed (index : Slot) (st st' : Store) : Prop where
  fd : (st'.server.clients index).fd = none
  bytes : (st'.server.clients index).bytes = 0
  others : ∀ i, i ≠ index → st'.server.clients i = st.server.clients i
  connections : st'.server.connections = st.server.connections
  memory : Emptied index st.memory st'.memory

theorem closeClient_closed (accounted : Accounted st) (fd : (st.server.clients index).fd ≠ none) :
    Closed index st (closeClient index st) := by
  obtain ⟨connection, known⟩ := Option.ne_none_iff_exists'.mp fd
  unfold closeClient
  rw [known]
  refine ⟨?_, ?_, fun i apart => ?_, rfl, freeQueue_empties index _ (accounted.fits index) rfl⟩
  · simp [Server.modify]
  · simp [Server.modify]
  · simp [Server.modify, Function.update_of_ne apart]

theorem Accounted.closed {st' : Store} (accounted : Accounted st) (closed : Closed index st st') :
    Accounted st' := by
  obtain ⟨fd, bytes, others, -, emptied⟩ := closed
  have live {i : Slot} (apart : i ≠ index) : st'.memory.live i = st.memory.live i :=
    congrArg (RingBuffer.contents queuePackets) (emptied.others i apart)
  have lens : st'.memory.len = st.memory.len := by
    funext address
    unfold Memory.len
    rw [emptied.packets]
  constructor
  · intro i
    by_cases same : i = index
    · exact same ▸ emptied.fits
    · exact emptied.others i same ▸ accounted.fits i
  · intro i none
    by_cases same : i = index
    · exact same ▸ emptied.live
    · rw [others i same] at none
      exact live same ▸ accounted.idle i none
  · intro i
    by_cases same : i = index
    · rw [same, bytes, emptied.live]
      rfl
    · rw [others i same, live same, lens]
      exact accounted.bytes i
  · intro i
    by_cases same : i = index
    · rw [same, bytes]
      exact Nat.zero_le _
    · rw [others i same]
      exact accounted.bound i
  · rw [emptied.freed, emptied.packets]
    refine each_of_change index accounted.each (fun i apart => live apart) fun rest before => ?_
    rw [emptied.live, List.nil_append, List.append_assoc]
    exact before

theorem Traced.closed {st' : Store} (traced : Traced st) (closed : Closed index st st') : Traced st' := by
  obtain ⟨fd, -, others, connections, emptied⟩ := closed
  have still {i : Slot} {connection : ℕ} (open_fd : (st'.server.clients i).fd = some connection) :
      i ≠ index ∧ (st.server.clients i).fd = some connection := by
    have apart : i ≠ index := fun same => by simp [same, fd] at open_fd
    exact ⟨apart, others i apart ▸ open_fd⟩
  refine ⟨?_, ?_, ?_, ?_, ?_, ?_, ?_, ?_⟩
  · intro i connection open_fd
    obtain ⟨apart, before⟩ := still open_fd
    rw [emptied.accepted, emptied.sent, Memory.live, emptied.others i apart]
    exact traced.whole i connection before
  · rw [emptied.accepted, emptied.sent]
    exact traced.front
  · intro i connection open_fd
    rw [connections]
    exact traced.known i connection (still open_fd).2
  · intro i j connection open_fd open_fd'
    exact traced.alone i j connection (still open_fd).2 (still open_fd').2
  · rw [connections, emptied.accepted]
    exact traced.unused
  · rw [emptied.accepted, emptied.packets]
    exact traced.allocated
  · rw [emptied.accepted]
    exact traced.once
  · rw [emptied.accepted]
    exact traced.apart

end Close

/-! ### A packet queued -/

section Push

variable {st : Store} {index : Slot} {connection : ℕ} {packet : Packet}

theorem push_live (room : (st.memory.rings index).count < queuePackets) :
    (st.push index connection packet).memory.live index = st.memory.live index ++ [st.memory.packets.length] := by
  simpa [push, Memory.pushPacket, Memory.live] using RingBuffer.contents_push st.memory.packets.length room

theorem push_others {i : Slot} (apart : i ≠ index) :
    (st.push index connection packet).memory.rings i = st.memory.rings i ∧
      ((st.push index connection packet).server.clients i).bytes = (st.server.clients i).bytes := by
  simp [push, Memory.pushPacket, Server.modify, Function.update_of_ne apart]

theorem push_fd (i : Slot) :
    ((st.push index connection packet).server.clients i).fd = (st.server.clients i).fd := by
  by_cases same : i = index
  · subst same
    simp [push, Server.modify]
  · simp [push, Server.modify, Function.update_of_ne same]

/-- What is queued was allocated. -/
theorem Accounted.live_lt (accounted : Accounted st) {i : Slot} {address : ℕ}
    (queued : address ∈ st.memory.live i) : address < st.memory.packets.length := by
  have member : address ∈ st.memory.freed ++ (List.finRange 16).flatMap st.memory.live :=
    List.mem_append_right _ (List.mem_flatMap.mpr ⟨i, List.mem_finRange i, queued⟩)
  exact List.mem_range.mp (accounted.each.mem_iff.mp member)

/-- A further allocation leaves the lengths of what is queued. -/
theorem Accounted.lens (accounted : Accounted st) (i : Slot) :
    (st.memory.live i).map (st.push index connection packet).memory.len = (st.memory.live i).map st.memory.len := by
  refine List.map_congr_left fun address queued => ?_
  show ((st.memory.packets ++ [packet])[address]?).elim 0 Packet.len = _
  rw [List.getElem?_append_left (accounted.live_lt queued)]
  rfl

theorem Accounted.push (accounted : Accounted st) (fd : (st.server.clients index).fd = some connection)
    (room : (st.memory.rings index).count < queuePackets)
    (bytes : (st.server.clients index).bytes + packet.len ≤ queueBytes) :
    Accounted (st.push index connection packet) := by
  have mine : ((st.push index connection packet).server.clients index).bytes =
      (st.server.clients index).bytes + packet.len := by
    simp [Store.push, Server.modify]
  have live {i : Slot} (apart : i ≠ index) :
      (st.push index connection packet).memory.live i = st.memory.live i :=
    congrArg (RingBuffer.contents queuePackets) (push_others apart).1
  constructor
  · intro i
    by_cases same : i = index
    · subst same
      simpa [Store.push, Memory.pushPacket] using (accounted.fits i).push _ room
    · rw [(push_others same).1]
      exact accounted.fits i
  · intro i closed
    rw [push_fd] at closed
    have apart : i ≠ index := fun same => by simp [same, fd] at closed
    rw [live apart]
    exact accounted.idle i closed
  · intro i
    by_cases same : i = index
    · have own : (st.push index connection packet).memory.len st.memory.packets.length = packet.len := by
        show ((st.memory.packets ++ [packet])[_]?).elim 0 Packet.len = _
        rw [List.getElem?_concat_length]
        rfl
      rw [same, mine, push_live room, List.map_append, accounted.lens, List.sum_append, ← accounted.bytes]
      simp [own]
    · rw [(push_others same).2, live same, accounted.lens]
      exact accounted.bytes i
  · intro i
    by_cases same : i = index
    · rw [same, mine]
      exact bytes
    · rw [(push_others same).2]
      exact accounted.bound i
  · refine each_of_change index accounted.each (fun i apart => live apart) fun rest before => ?_
    show (st.memory.freed ++ _).Perm (List.range (st.memory.packets ++ [packet]).length)
    rw [push_live room, List.length_append, List.length_singleton, List.range_succ, List.append_assoc,
      List.singleton_append, ← List.append_assoc]
    rw [← List.append_assoc] at before
    exact (List.perm_middle.trans (before.cons _)).trans (List.perm_append_singleton _ _).symm

theorem Traced.push (traced : Traced st) (fd : (st.server.clients index).fd = some connection)
    (room : (st.memory.rings index).count < queuePackets) : Traced (st.push index connection packet) := by
  have mine : (st.push index connection packet).memory.accepted connection =
      st.memory.accepted connection ++ [st.memory.packets.length] := by
    simp [Store.push, Memory.pushPacket]
  have theirs {other : ℕ} (apart : other ≠ connection) :
      (st.push index connection packet).memory.accepted other = st.memory.accepted other := by
    simp [Store.push, Memory.pushPacket, Function.update_of_ne apart]
  have longer : (st.push index connection packet).memory.packets.length = st.memory.packets.length + 1 := by
    simp [Store.push, Memory.pushPacket]
  -- The new address is above every one accepted before.
  have fresh {other : ℕ} : st.memory.packets.length ∉ st.memory.accepted other := fun member =>
    Nat.lt_irrefl _ (traced.allocated other _ member)
  have accepted {other address : ℕ} (member : address ∈ (st.push index connection packet).memory.accepted other) :
      address ∈ st.memory.accepted other ∨ address = st.memory.packets.length ∧ other = connection := by
    by_cases same : other = connection
    · rw [same, mine, List.mem_append, List.mem_singleton] at member
      exact member.imp (fun before => same ▸ before) fun new => ⟨new, same⟩
    · exact .inl (theirs same ▸ member)
  refine ⟨?_, ?_, ?_, ?_, ?_, ?_, ?_, ?_⟩
  · intro i other other_fd
    rw [push_fd] at other_fd
    by_cases same : other = connection
    · subst same
      rw [traced.alone i index other other_fd fd, mine, push_live room, traced.whole index other fd,
        List.append_assoc]
      rfl
    · have apart : i ≠ index := fun at_index => same (Option.some.inj (other_fd.symm.trans (at_index ▸ fd)))
      rw [theirs same]
      refine (traced.whole i other other_fd).trans (congrArg _ ?_)
      exact (congrArg (RingBuffer.contents queuePackets) (push_others apart).1).symm
  · intro other
    by_cases same : other = connection
    · rw [same, mine]
      exact (traced.front connection).trans (List.prefix_append _ _)
    · rw [theirs same]
      exact traced.front other
  · intro i other other_fd
    rw [push_fd] at other_fd
    exact traced.known i other other_fd
  · intro i j other other_fd other_fd'
    rw [push_fd] at other_fd other_fd'
    exact traced.alone i j other other_fd other_fd'
  · intro other unused
    have apart : other ≠ connection := by
      have := traced.known index connection fd
      rintro rfl
      exact absurd unused (Nat.not_le.mpr this)
    rw [theirs apart]
    exact traced.unused other unused
  · intro other address member
    rw [longer]
    rcases accepted member with before | ⟨rfl, -⟩
    · exact Nat.lt_succ_of_lt (traced.allocated other address before)
    · exact Nat.lt_succ_self _
  · intro other
    by_cases same : other = connection
    · rw [same, mine]
      exact (traced.once connection).append (List.nodup_singleton _)
        (List.disjoint_singleton.mpr fresh)
    · rw [theirs same]
      exact traced.once other
  · intro one other address member member'
    rcases accepted member with before | ⟨rfl, here⟩ <;> rcases accepted member' with before' | ⟨new, here'⟩
    · exact traced.apart one other address before before'
    · exact absurd (new ▸ before) fresh
    · exact absurd before' fresh
    · exact here.trans here'.symm

end Push

/-! ### The run -/

/-- What holds of the queues at any time. -/
structure Sound (st : Store) : Prop where
  accounted : Accounted st
  traced : Traced st

/-- Where neither a queue nor a connection changes, the invariant does not. -/
theorem Sound.of_same {st st' : Store} (sound : Sound st) (memory : st'.memory = st.memory)
    (connections : st'.server.connections = st.server.connections)
    (fd : ∀ i, (st'.server.clients i).fd = (st.server.clients i).fd)
    (bytes : ∀ i, (st'.server.clients i).bytes = (st.server.clients i).bytes) : Sound st' := by
  obtain ⟨accounted, traced⟩ := sound
  obtain ⟨fits, idle, counted, bound, each⟩ := accounted
  obtain ⟨whole, front, known, alone, unused, allocated, once, apart⟩ := traced
  refine ⟨⟨?_, ?_, ?_, ?_, ?_⟩, ?_, ?_, ?_, ?_, ?_, ?_, ?_, ?_⟩ <;>
    simp only [memory, connections, fd, bytes] <;> assumption

theorem sound_lasting : Lasting Sound where
  next _ sound := sound.of_same rfl rfl (fun _ => rfl) fun _ => rfl
  took _ _ _ sound fd held := ⟨sound.accounted.took fd held, sound.traced.took sound.accounted fd held⟩
  close _ _ sound fd :=
    have closed := closeClient_closed sound.accounted fd
    ⟨sound.accounted.closed closed, sound.traced.closed closed⟩
  push _ index _ _ sound fd room bytes :=
    have less := Nat.lt_of_le_of_ne (sound.accounted.fits index).count room
    ⟨sound.accounted.push fd less bytes, sound.traced.push fd less⟩
  released _ sound := sound.of_same rfl rfl (fun _ => rfl) fun _ => rfl

theorem Sound.start : Sound {} := by
  have empty : ∀ i : Slot, ({} : Memory).live i = [] := fun _ => rfl
  constructor
  · refine ⟨fun _ => ⟨Nat.zero_lt_succ 1023, Nat.zero_le _⟩, fun _ _ => rfl, fun _ => rfl,
      fun _ => Nat.zero_le _, ?_⟩
    show ([] ++ (List.finRange 16).flatMap ({} : Memory).live).Perm []
    rw [List.flatMap_eq_nil_iff.mpr fun i _ => empty i]
    exact List.Perm.refl _
  · constructor
    · intro i connection fd
      cases fd
    · exact fun _ => List.prefix_refl _
    · intro i connection fd
      cases fd
    · intro i j connection fd
      cases fd
    · exact fun _ _ => rfl
    · intro connection address member
      cases member
    · exact fun _ => List.nodup_nil
    · intro connection other address member
      cases member

/-- A slot that starts from nothing, and holds a new connection. -/
structure Opened (index : Slot) (st st' : Store) : Prop where
  client : st'.server.clients index = { fd := some st.server.connections }
  ring : st'.memory.rings index = { cells := fun _ => 0 }
  others : ∀ i, i ≠ index →
    st'.server.clients i = st.server.clients i ∧ st'.memory.rings i = st.memory.rings i
  connections : st'.server.connections = st.server.connections + 1
  packets : st'.memory.packets = st.memory.packets
  freed : st'.memory.freed = st.memory.freed
  accepted : st'.memory.accepted = st.memory.accepted
  sent : st'.memory.sent = st.memory.sent

theorem acceptClient_cases (st : Store) :
    (∀ i, (st.server.clients i).fd ≠ none) ∧ acceptClient st =
        { st with server := { st.server with connections := st.server.connections + 1 } } ∨
      ∃ index, (st.server.clients index).fd = none ∧ Opened index st (acceptClient st) := by
  unfold acceptClient
  split
  next full =>
    refine .inl ⟨fun i => ?_, rfl⟩
    simpa using List.find?_eq_none.mp full i (List.mem_finRange i)
  next index found =>
    refine .inr ⟨index, by simpa using List.find?_some found, ?_, ?_, fun i apart => ⟨?_, ?_⟩,
      rfl, rfl, rfl, rfl, rfl⟩
    · exact Function.update_self _ _ _
    · exact Function.update_self _ _ _
    · exact Function.update_of_ne apart _ _
    · exact Function.update_of_ne apart _ _

theorem Sound.opened {st st' : Store} {index : Slot} (sound : Sound st)
    (free : (st.server.clients index).fd = none) (opened : Opened index st st') : Sound st' := by
  obtain ⟨accounted, traced⟩ := sound
  have live (i : Slot) : st'.memory.live i = st.memory.live i := by
    by_cases same : i = index
    · rw [same, accounted.idle index free, Memory.live, opened.ring]
      rfl
    · rw [Memory.live, (opened.others i same).2]
      rfl
  have lens : st'.memory.len = st.memory.len := by
    funext address
    rw [Memory.len, opened.packets]
    rfl
  have cases_fd {i : Slot} {connection : ℕ} (fd : (st'.server.clients i).fd = some connection) :
      i = index ∧ connection = st.server.connections ∨
        i ≠ index ∧ (st.server.clients i).fd = some connection := by
    by_cases same : i = index
    · rw [same, opened.client] at fd
      exact .inl ⟨same, (Option.some.inj fd).symm⟩
    · rw [(opened.others i same).1] at fd
      exact .inr ⟨same, fd⟩
  have unused := traced.unused st.server.connections (Nat.le_refl _)
  refine ⟨⟨?_, ?_, ?_, ?_, ?_⟩, ?_, ?_, ?_, ?_, ?_, ?_, ?_, ?_⟩
  · intro i
    by_cases same : i = index
    · rw [same, opened.ring]
      exact ⟨Nat.zero_lt_succ 1023, Nat.zero_le _⟩
    · rw [(opened.others i same).2]
      exact accounted.fits i
  · intro i closed
    have same : i ≠ index := by
      rintro rfl
      rw [opened.client] at closed
      cases closed
    rw [(opened.others i same).1] at closed
    rw [live]
    exact accounted.idle i closed
  · intro i
    rw [live, lens]
    by_cases same : i = index
    · rw [same, opened.client, accounted.idle index free]
      rfl
    · rw [(opened.others i same).1]
      exact accounted.bytes i
  · intro i
    by_cases same : i = index
    · rw [same, opened.client]
      exact Nat.zero_le _
    · rw [(opened.others i same).1]
      exact accounted.bound i
  · rw [opened.freed, opened.packets, funext live]
    exact accounted.each
  · intro i connection fd
    rw [opened.accepted, opened.sent, live]
    rcases cases_fd fd with ⟨rfl, rfl⟩ | ⟨-, before⟩
    · have none_sent := traced.front st.server.connections
      rw [unused] at none_sent
      rw [unused, List.prefix_nil.mp none_sent, accounted.idle i free]
      rfl
    · exact traced.whole i connection before
  · rw [opened.accepted, opened.sent]
    exact traced.front
  · intro i connection fd
    rw [opened.connections]
    rcases cases_fd fd with ⟨-, rfl⟩ | ⟨-, before⟩
    · exact Nat.lt_succ_self _
    · exact Nat.lt_succ_of_lt (traced.known i connection before)
  · intro i j connection fd fd'
    rcases cases_fd fd with ⟨rfl, rfl⟩ | ⟨-, before⟩ <;> rcases cases_fd fd' with ⟨rfl, new⟩ | ⟨-, before'⟩
    · rfl
    · exact absurd (traced.known j _ before') (Nat.lt_irrefl _)
    · exact absurd (new ▸ traced.known i _ before) (Nat.lt_irrefl _)
    · exact traced.alone i j connection before before'
  · intro connection more
    rw [opened.connections] at more
    rw [opened.accepted]
    exact traced.unused connection (Nat.le_of_succ_le more)
  · rw [opened.accepted, opened.packets]
    exact traced.allocated
  · rw [opened.accepted]
    exact traced.once
  · rw [opened.accepted]
    exact traced.apart

theorem Sound.acceptClient {st : Store} (sound : Sound st) : Sound (acceptClient st) := by
  rcases acceptClient_cases st with ⟨-, same⟩ | ⟨index, free, opened⟩
  · rw [same]
    obtain ⟨accounted, traced⟩ := sound
    obtain ⟨whole, front, known, alone, unused, allocated, once, apart⟩ := traced
    refine ⟨⟨accounted.fits, accounted.idle, accounted.bytes, accounted.bound, accounted.each⟩,
      whole, front, ?_, alone, ?_, allocated, once, apart⟩
    · exact fun i connection fd => Nat.lt_succ_of_lt (known i connection fd)
    · exact fun connection more => unused connection (Nat.le_of_succ_le more)
  · exact sound.opened free opened

theorem Sound.operate {st : Store} (sound : Sound st) (operation : Operation) :
    Sound (operate outside st operation) := by
  have dropped : ∀ st i, Sound st → Sound (disconnect outside i st) := fun _ i sound =>
    disconnect_keeps sound_lasting i sound
  cases operation with
  | enqueue index packet => exact enqueue_keeps sound_lasting dropped index packet sound
  | flush index => exact flush_keeps sound_lasting dropped index sound
  | disconnect index => exact dropped st index sound
  | broadcast hears packet => exact broadcast_keeps sound_lasting dropped hears packet sound
  | releaseOwner => exact releaseOwner_keeps sound_lasting sound
  | own index => exact sound.of_same rfl rfl (fun _ => rfl) fun _ => rfl
  | join index role sources =>
      have client (i : Slot) : ((join index role sources st).server.clients i).fd = (st.server.clients i).fd ∧
          ((join index role sources st).server.clients i).bytes = (st.server.clients i).bytes := by
        by_cases same : i = index
        · subst same
          simp [join, Server.modify]
        · simp [join, Server.modify, Function.update_of_ne same]
      exact sound.of_same rfl rfl (fun i => (client i).1) fun i => (client i).2
  | accept => exact sound.acceptClient

theorem sound_operated (operations : List Operation) : Sound (operated outside operations) :=
  List.foldlRecOn operations (operate outside) Sound.start fun _ sound operation _ => sound.operate operation

/-! ### A closed connection -/

/-- A slot without a connection gets none where packets go out. -/
theorem closed_lasting (index : Slot) : Lasting fun st => (st.server.clients index).fd = none where
  next _ closed := closed
  took st i connection closed _ _ := (tookFirst_fd i index connection st).trans closed
  close st i closed open_fd := by
    obtain ⟨connection, known⟩ := Option.ne_none_iff_exists'.mp open_fd
    unfold closeClient
    rw [known]
    by_cases same : index = i
    · subst same
      simp [Server.modify]
    · simpa [Server.modify, Function.update_of_ne same] using closed
  push st i connection packet closed _ _ _ := (push_fd index).trans closed
  released _ closed := closed

theorem disconnect_closed {st : Store} (index : Slot) :
    ((disconnect outside index st).server.clients index).fd = none := by
  have closes : ((closeClient index st).server.clients index).fd = none := by
    unfold closeClient
    split
    · assumption
    · simp [Server.modify]
  unfold disconnect
  split
  · assumption
  · split
    · exact releaseOwner_keeps (closed_lasting index) closes
    · exact closes

/-! ### What is handed to a queue -/

/-- The slot is closed, or it and what was accepted are as they were. -/
def Undecided (index : Slot) (st st' : Store) : Prop :=
  (st'.server.clients index).fd = none
    ∨ (st'.server.clients index).fd = (st.server.clients index).fd
      ∧ st'.memory.accepted = st.memory.accepted ∧ st'.memory.packets = st.memory.packets

theorem Undecided.trans {index : Slot} {first second third : Store} (one : Undecided index first second)
    (two : Undecided index second third) : Undecided index first third := by
  rcases two with closed | ⟨fd, accepted, packets⟩
  · exact Or.inl closed
  · rcases one with closed | ⟨fd', accepted', packets'⟩
    · exact Or.inl (fd.trans closed)
    · exact Or.inr ⟨fd.trans fd', accepted.trans accepted', packets.trans packets'⟩

theorem flushQueue_undecided (index : Slot) (connection n : ℕ) (st : Store) :
    Undecided index st (flushQueue outside (disconnect outside) index connection n st) := by
  induction n generalizing st with
  | zero => exact Or.inr ⟨rfl, rfl, rfl⟩
  | succ n ih =>
      unfold flushQueue
      cases outside.send st.server.asked with
      | taken =>
          have took : Undecided index st (st.next.tookFirst index connection) :=
            Or.inr ⟨tookFirst_fd index index connection st.next, rfl, rfl⟩
          exact took.trans (ih _)
      | again => exact Or.inr ⟨rfl, rfl, rfl⟩
      | failed => exact Or.inl (disconnect_closed index)

theorem flush_undecided (index : Slot) (st : Store) :
    Undecided index st (flush outside (disconnect outside) index st) := by
  unfold flush
  split
  · exact Or.inr ⟨rfl, rfl, rfl⟩
  · exact flushQueue_undecided index _ _ st

/-- Behind an enqueue the slot is closed, or the packet is the last that was accepted for its connection. -/
theorem enqueue_accepted (outside : Outside) (index : Slot) (packet : Packet) (st : Store) :
    ((enqueue outside (disconnect outside) index packet st).server.clients index).fd = none
      ∨ ∃ connection, (st.server.clients index).fd = some connection
        ∧ ((enqueue outside (disconnect outside) index packet st).server.clients index).fd = some connection
        ∧ (enqueue outside (disconnect outside) index packet st).memory.accepted
          = Function.update st.memory.accepted connection (st.memory.accepted connection ++ [st.memory.packets.length])
        ∧ (enqueue outside (disconnect outside) index packet st).memory.packets = st.memory.packets ++ [packet] := by
  have flushed := @flush_undecided outside index st
  unfold enqueue
  dsimp only
  generalize flush outside (disconnect outside) index st = middle at flushed
  cases fd : (middle.server.clients index).fd with
  | none => exact Or.inl fd
  | some connection =>
      obtain ⟨same, accepted, packets⟩ := flushed.resolve_left (by simp [fd])
      dsimp only
      split
      · exact Or.inl (disconnect_closed index)
      · split
        · rcases @flush_undecided outside index (middle.next.push index connection packet)
            with closed | ⟨kept, accepted', packets'⟩
          · exact Or.inl closed
          · refine Or.inr ⟨connection, same.symm.trans fd, (kept.trans (push_fd index)).trans fd, ?_, ?_⟩
            · rw [accepted', ← accepted, ← packets]
              rfl
            · rw [packets', ← packets]
              rfl
        · exact Or.inl (disconnect_closed index)

/-- Whatever was accepted for a connection that is gone was freed. -/
theorem Sound.freed {st : Store} (sound : Sound st) {connection address : ℕ}
    (gone : ∀ i, (st.server.clients i).fd ≠ some connection)
    (accepted : address ∈ st.memory.accepted connection) :
    address ∈ st.memory.freed := by
  have allocated := sound.traced.allocated connection address accepted
  have member := sound.accounted.each.mem_iff.mpr (List.mem_range.mpr allocated)
  refine (List.mem_append.mp member).resolve_right fun queued => ?_
  obtain ⟨i, -, live⟩ := List.mem_flatMap.mp queued
  cases fd : (st.server.clients i).fd with
  | none =>
      rw [sound.accounted.idle i fd] at live
      exact List.not_mem_nil live
  | some other =>
      have theirs : address ∈ st.memory.accepted other :=
        sound.traced.whole i other fd ▸ List.mem_append_right _ live
      exact gone i (sound.traced.apart connection other address accepted theirs ▸ fd)

/-! ### The queues of `Model.Server` -/

theorem load_cons {st : Store} (accounted : Accounted st) {i : Slot} {address : ℕ} {rest : List ℕ}
    (live : st.memory.live i = address :: rest) :
    ∃ packet, st.memory.packets[address]? = some packet ∧
      st.memory.load (st.memory.live i) = packet :: st.memory.load rest := by
  have allocated : address < st.memory.packets.length :=
    accounted.live_lt (live.symm ▸ List.mem_cons_self : address ∈ st.memory.live i)
  obtain ⟨packet, known⟩ : ∃ packet, st.memory.packets[address]? = some packet :=
    ⟨_, List.getElem?_eq_getElem allocated⟩
  refine ⟨packet, known, ?_⟩
  rw [live]
  exact List.filterMap_cons_some known

theorem length_load {st : Store} (accounted : Accounted st) (i : Slot) :
    (st.memory.load (st.memory.live i)).length = (st.memory.rings i).count := by
  have each : ∀ addresses : List ℕ, (∀ address ∈ addresses, address < st.memory.packets.length) →
      (st.memory.load addresses).length = addresses.length := by
    intro addresses allocated
    induction addresses with
    | nil => rfl
    | cons address rest ih =>
        obtain ⟨first, others⟩ := List.forall_mem_cons.mp allocated
        rw [Memory.load, List.filterMap_cons_some (List.getElem?_eq_getElem first), List.length_cons,
          List.length_cons]
        exact congrArg (· + 1) (ih others)
  rw [each _ fun address queued => accounted.live_lt queued]
  exact RingBuffer.length_contents _

/-- Two servers with the same slots and wires, and nothing else to tell them apart. -/
theorem server_eq {s t : Server} (clients : ∀ i, s.clients i = t.clients i)
    (wires : ∀ connection, s.wires connection = t.wires connection)
    (rest : { t with clients := s.clients, wires := s.wires } = s) : s = t := by
  rw [← rest, funext clients, funext wires]

theorem view_took {st : Store} {index : Slot} {connection : ℕ} {packet : Packet}
    (known : st.memory.packets[(st.memory.rings index).first]? = some packet) :
    (st.tookFirst index connection).view = st.view.took index connection packet
      (st.memory.load ((st.tookFirst index connection).memory.live index)) := by
  have len : st.memory.len (st.memory.rings index).first = packet.len := by
    rw [Memory.len, known]
    rfl
  refine server_eq (fun i => ?_) (fun other => ?_) rfl
  · by_cases same : i = index
    · subst same
      simp [view, tookFirst, Server.took, Server.modify, len, Memory.freeFirst, Memory.live, Memory.load]
    · simp [view, tookFirst, Server.took, Server.modify, Function.update_of_ne same, Memory.freeFirst, Memory.live,
        Memory.load]
  · by_cases same : other = connection
    · subst same
      simp [view, tookFirst, Server.took, Memory.freeFirst, Memory.load, known]
    · simp [view, tookFirst, Server.took, Function.update_of_ne same, Memory.freeFirst, Memory.load]

theorem view_close {st : Store} (accounted : Accounted st) (index : Slot) :
    (closeClient index st).view = Backend.closeClient index st.view := by
  cases fd : (st.server.clients index).fd with
  | none =>
      have fd' : (st.view.clients index).fd = none := fd
      unfold closeClient Backend.closeClient
      rw [fd, fd']
  | some connection =>
      have fd' : (st.view.clients index).fd = some connection := fd
      obtain ⟨-, live, others, -, packets, -, sent⟩ := freeQueue_empties index _ (accounted.fits index) rfl
      unfold closeClient Backend.closeClient
      rw [fd, fd']
      refine server_eq (fun i => ?_) (fun other => ?_) rfl
      · by_cases same : i = index
        · subst same
          simp [view, Server.modify, live, Memory.load]
        · have theirs : ((st.memory.freeQueue index (st.memory.rings index).count).live i) = st.memory.live i :=
            congrArg (RingBuffer.contents queuePackets) (others i same)
          simp [view, Server.modify, Function.update_of_ne same, theirs, Memory.load, packets]
      · simp [view, Server.modify, sent, Memory.load, packets]

theorem view_push {st : Store} (sound : Sound st) {index : Slot} {connection : ℕ} {packet : Packet}
    (room : (st.memory.rings index).count < queuePackets) :
    (st.push index connection packet).view = st.view.push index packet := by
  have more {addresses : List ℕ} (allocated : ∀ address ∈ addresses, address < st.memory.packets.length) :
      addresses.filterMap ((st.memory.packets ++ [packet])[·]?) = st.memory.load addresses := by
    refine List.filterMap_congr fun address member => ?_
    exact List.getElem?_append_left (allocated address member)
  refine server_eq (fun i => ?_) (fun other => ?_) rfl
  · have mine := more fun address queued => sound.accounted.live_lt (i := i) queued
    by_cases same : i = index
    · subst same
      have queue : (st.push i connection packet).memory.load ((st.push i connection packet).memory.live i) =
          st.memory.load (st.memory.live i) ++ [packet] := by
        have new : (st.memory.packets ++ [packet])[st.memory.packets.length]? = some packet :=
          List.getElem?_concat_length
        rw [push_live room]
        show List.filterMap ((st.memory.packets ++ [packet])[·]?) _ = _
        rw [List.filterMap_append, mine, List.filterMap_cons_some new]
        rfl
      have client : (st.push i connection packet).view.clients i =
          { (st.push i connection packet).server.clients i with
            queue := (st.push i connection packet).memory.load ((st.push i connection packet).memory.live i) } := rfl
      rw [client, queue]
      simp [push, Server.push, Server.modify, view]
    · have queue : (st.push index connection packet).memory.load
          ((st.push index connection packet).memory.live i) = st.memory.load (st.memory.live i) := by
        rw [Memory.live, (push_others same).1]
        exact mine
      have client : (st.push index connection packet).view.clients i =
          { (st.push index connection packet).server.clients i with
            queue := (st.push index connection packet).memory.load
              ((st.push index connection packet).memory.live i) } := rfl
      rw [client, queue]
      simp [push, Server.push, Server.modify, view, Function.update_of_ne same]
  · have theirs := more fun address sent =>
      sound.traced.allocated other address ((sound.traced.front other).subset sent)
    exact theirs

/-- A disconnect of the store is one of the server. -/
def Drops (drop : Slot → Store → Store) (drop' : Slot → Server → Server) : Prop :=
  ∀ index st, Sound st → Sound (drop index st) ∧ (drop index st).view = drop' index st.view

section Drops

variable {drop : Slot → Store → Store} {drop' : Slot → Server → Server}

theorem view_flushQueue (drops : Drops drop drop') (index : Slot) (connection n : ℕ) {st : Store} (sound : Sound st)
    (fd : (st.server.clients index).fd = some connection) (count : (st.memory.rings index).count = n) :
    (flushQueue outside drop index connection n st).view =
      Backend.flushQueue outside drop' index connection (st.view.clients index).queue st.view := by
  induction n generalizing st with
  | zero =>
      have empty : (st.view.clients index).queue = [] := by
        show st.memory.load (st.memory.live index) = []
        rw [Memory.live, RingBuffer.contents_eq_nil.mpr count]
        rfl
      rw [empty]
      rfl
  | succ n ih =>
      have held : (st.memory.rings index).count ≠ 0 := by omega
      have popped := @Accounted.popped st index connection sound.accounted held
      obtain ⟨packet, known, queue⟩ := load_cons sound.accounted popped
      have same : (st.view.clients index).queue = packet ::
          st.memory.load ((st.tookFirst index connection).memory.live index) := queue
      rw [same]
      unfold flushQueue Backend.flushQueue
      rw [show st.view.asked = st.server.asked from rfl]
      cases outside.send st.server.asked with
      | taken =>
          have next := sound_lasting.next st sound
          have took := sound_lasting.took st.next index connection next fd held
          have left : ((st.next.tookFirst index connection).view.clients index).queue =
              st.memory.load ((st.tookFirst index connection).memory.live index) := rfl
          refine (ih took ((tookFirst_fd index index connection st.next).trans fd) ?_).trans ?_
          · rw [tookFirst_count, next_memory, count, Nat.add_sub_cancel]
          · rw [left, @view_took st.next index connection packet known]
            rfl
      | again => rfl
      | failed => exact (drops index st.next (sound_lasting.next st sound)).2

theorem Drops.keeps (drops : Drops drop drop') : ∀ st i, Sound st → Sound (drop i st) :=
  fun st i sound => (drops i st sound).1

theorem view_flush (drops : Drops drop drop') (index : Slot) {st : Store} (sound : Sound st) :
    (flush outside drop index st).view = Backend.flush outside drop' index st.view := by
  unfold flush Backend.flush
  rw [show (st.view.clients index).fd = (st.server.clients index).fd from rfl]
  cases fd : (st.server.clients index).fd with
  | none => rfl
  | some connection => exact view_flushQueue drops index connection _ sound fd rfl

theorem view_enqueue (drops : Drops drop drop') (index : Slot) (packet : Packet) {st : Store} (sound : Sound st) :
    (enqueue outside drop index packet st).view = Backend.enqueue outside drop' index packet st.view := by
  have flushed := @flush_keeps outside _ drop sound_lasting drops.keeps index _ sound
  unfold enqueue Backend.enqueue
  dsimp only
  rw [← view_flush drops index sound]
  generalize flush outside drop index st = st at flushed
  rw [show (st.view.clients index).fd = (st.server.clients index).fd from rfl,
    show (st.view.clients index).bytes = (st.server.clients index).bytes from rfl,
    show (st.view.clients index).queue.length = (st.memory.rings index).count from
      length_load flushed.accounted index, show st.view.asked = st.server.asked from rfl]
  cases fd : (st.server.clients index).fd with
  | none => rw [if_pos rfl]
  | some connection =>
      rw [if_neg (Option.some_ne_none connection)]
      dsimp only
      by_cases refused : (decide (controlPayload < packet.payload.length)
          || (st.memory.rings index).count == queuePackets
          || decide (queueBytes < (st.server.clients index).bytes + controlHeader + packet.payload.length)) = true
      · rw [if_pos refused, if_pos refused]
        exact (drops index st flushed).2
      · rw [if_neg refused, if_neg refused]
        simp only [Bool.or_eq_true, decide_eq_true_eq, beq_iff_eq, not_or, not_lt] at refused
        obtain ⟨⟨-, room⟩, bytes⟩ := refused
        have asked := sound_lasting.next st flushed
        by_cases allocated : outside.malloc st.server.asked = true
        · rw [if_pos allocated, if_pos allocated]
          have less := Nat.lt_of_le_of_ne (flushed.accounted.fits index).count room
          have pushed := sound_lasting.push st.next index connection packet asked fd room
            (by rw [Packet.len, ← Nat.add_assoc]; exact bytes)
          rw [view_flush drops index pushed, @view_push st.next asked index connection packet less]
          rfl
        · rw [if_neg allocated, if_neg allocated]
          exact (drops index st.next asked).2

theorem view_stateChanged (drops : Drops drop drop') {st : Store} (sound : Sound st) :
    (stateChanged outside drop st).view = Backend.stateChanged outside drop' st.view := by
  unfold stateChanged broadcast Backend.stateChanged
  have keeps : ∀ (slots : List Slot) (st : Store), Sound st → (slots.foldl (fun st i =>
      if (st.server.clients i).fd ≠ none ∧ decide ((st.server.clients i).role ≠ 0) = true then
        enqueue outside drop i st.server.leaseEvent st else st) st).view =
      slots.foldl (fun s i => if (s.clients i).fd ≠ none ∧ (s.clients i).role ≠ 0 then
        Backend.enqueue outside drop' i s.leaseEvent s else s) st.view := by
    intro slots
    induction slots with
    | nil => exact fun st _ => rfl
    | cons i slots ih =>
        intro st sound
        rw [List.foldl_cons, List.foldl_cons]
        by_cases hears : (st.server.clients i).fd ≠ none ∧ (st.server.clients i).role ≠ 0
        · have hears' : (st.view.clients i).fd ≠ none ∧ (st.view.clients i).role ≠ 0 := hears
          have event : st.view.leaseEvent = st.server.leaseEvent := rfl
          rw [if_pos ⟨hears.1, decide_eq_true hears.2⟩, if_pos hears', event, ← view_enqueue drops i _ sound]
          exact ih _ (enqueue_keeps sound_lasting drops.keeps i _ sound)
        · have hears' : ¬((st.view.clients i).fd ≠ none ∧ (st.view.clients i).role ≠ 0) := hears
          rw [if_neg fun both => hears ⟨both.1, of_decide_eq_true both.2⟩, if_neg hears']
          exact ih _ sound
  exact keeps (List.finRange 16) st sound

end Drops

theorem drops_close : Drops closeClient Backend.closeClient := fun index _ sound =>
  ⟨closeClient_keeps sound_lasting index sound, view_close sound.accounted index⟩

/-- The disconnects of the store are those of `Model.Server`, releases of the lease included. -/
theorem drops_disconnect : Drops (disconnect outside) (Backend.disconnect outside) := by
  intro index st sound
  refine ⟨disconnect_keeps sound_lasting index sound, ?_⟩
  have closed := closeClient_keeps sound_lasting index sound
  unfold disconnect Backend.disconnect
  rw [show (st.view.clients index).fd = (st.server.clients index).fd from rfl,
    show st.view.owner = st.server.owner from rfl]
  cases fd : (st.server.clients index).fd with
  | none => rfl
  | some connection =>
      dsimp only
      by_cases owns : st.server.owner = some index
      · rw [if_pos owns, if_pos owns, ← view_close sound.accounted]
        exact view_stateChanged drops_close (sound_lasting.released _ closed)
      · rw [if_neg owns, if_neg owns]
        exact view_close sound.accounted index

/-! ### Every run -/

/-- **The queues of the control server.** In every run of enqueues, flushes, broadcasts and disconnects, what a
connection is sent is what was accepted for it, in order, as far as it goes; the counters count what is
queued, within their bounds; every packet is freed once or queued once; and of a connection that is gone
everything was freed, and nothing is sent to another. A packet that is handed to a queue is accepted, unless
its slot is closed. -/
theorem queuesSound (outside : Outside) (operations : List Operation) :
    let st := operated outside operations
    (∀ connection, st.memory.sent connection <+: st.memory.accepted connection ∧
      (st.memory.accepted connection).Nodup) ∧
    (∀ i connection, (st.server.clients i).fd = some connection →
      st.memory.accepted connection = st.memory.sent connection ++ st.memory.live i) ∧
    (∀ i, (st.server.clients i).bytes = ((st.memory.live i).map st.memory.len).sum ∧
      (st.server.clients i).bytes ≤ queueBytes ∧ (st.memory.rings i).head < queuePackets ∧
      (st.memory.rings i).count ≤ queuePackets) ∧
    (st.memory.freed ++ (List.finRange 16).flatMap st.memory.live).Perm (List.range st.memory.packets.length) ∧
    (∀ i, (st.server.clients i).fd = none → (st.memory.rings i).count = 0 ∧ (st.server.clients i).bytes = 0) ∧
    (∀ connection, (∀ i, (st.server.clients i).fd ≠ some connection) →
      ∀ address ∈ st.memory.accepted connection, st.memory.freed.count address = 1) ∧
    (∀ connection other, ∀ address ∈ st.memory.accepted connection, address ∈ st.memory.accepted other →
      connection = other) ∧
    (∀ index, ((operated outside (operations ++ [.disconnect index])).server.clients index).fd = none) ∧
    ∀ index packet, let st' := operated outside (operations ++ [.enqueue index packet])
      (st'.server.clients index).fd = none ∨ ∃ connection, (st'.server.clients index).fd = some connection ∧
        st'.memory.accepted connection = st.memory.accepted connection ++ [st.memory.packets.length] ∧
        st'.memory.packets = st.memory.packets ++ [packet] := by
  have sound := @sound_operated outside operations
  obtain ⟨accounted, traced⟩ := sound
  refine ⟨fun connection => ⟨traced.front connection, traced.once connection⟩, traced.whole, fun i => ?_,
    accounted.each, fun i closed => ?_, fun connection gone address accepted => ?_, traced.apart, fun index => ?_,
    fun index packet => ?_⟩
  · exact ⟨accounted.bytes i, accounted.bound i, (accounted.fits i).head, (accounted.fits i).count⟩
  · have empty := accounted.idle i closed
    refine ⟨RingBuffer.contents_eq_nil.mp empty, ?_⟩
    rw [accounted.bytes, empty]
    rfl
  · have once : (operated outside operations).memory.freed.Nodup :=
      ((accounted.each.nodup_iff.mpr List.nodup_range).of_append_left)
    exact List.count_eq_one_of_mem once (Sound.freed ⟨accounted, traced⟩ gone accepted)
  · rw [operated, List.foldl_append]
    exact disconnect_closed index
  · dsimp only
    rw [operated, List.foldl_append]
    rcases enqueue_accepted outside index packet (operated outside operations)
      with closed | ⟨connection, -, fd, accepted, packets⟩
    · exact Or.inl closed
    · refine Or.inr ⟨connection, fd, ?_, packets⟩
      exact (congrFun accepted connection).trans (Function.update_self ..)

end OscmixDesk.Backend.Store
