/-
**The queues of the control server in memory** (`control.c`, `struct client` as patch 0009 leaves it).

`Model.Server` treats a queue as the list of its packets. Here a packet is allocated, its address put into
the ring of its slot, and freed when the kernel takes it or its connection ends. A `Store` is a server and
the memory its queues are kept in; the lists of its own clients are not used. Addresses are the numbers of
the allocations. What was accepted for a connection and what it was sent is noted beside the memory;
nothing of the server looks at that.
-/

import OscmixDesk.Foundation.RingBuffer
import OscmixDesk.Model.Server

namespace OscmixDesk.Backend

/-! ### Memory -/

structure Memory where
  /-- `queue`, `head` and `count` of each slot. -/
  rings : Slot → RingBuffer ℕ := fun _ => { cells := fun _ => 0 }
  /-- What was allocated, by address. -/
  packets : List Packet := []
  freed : List ℕ := []
  accepted : ℕ → List ℕ := fun _ => []
  sent : ℕ → List ℕ := fun _ => []

namespace Memory

/-- The addresses in the queue of a slot, first to last. -/
def live (m : Memory) (index : Slot) : List ℕ :=
  (m.rings index).contents queuePackets

/-- `p->len`. -/
def len (m : Memory) (address : ℕ) : ℕ :=
  (m.packets[address]?).elim 0 Packet.len

/-- The packets at some addresses. -/
def load (m : Memory) (addresses : List ℕ) : List Packet :=
  addresses.filterMap (m.packets[·]?)

/-- Frees the first packet of a queue. -/
def freeFirst (index : Slot) (m : Memory) : Memory :=
  { m with
    rings := Function.update m.rings index ((m.rings index).pop queuePackets)
    freed := m.freed ++ [(m.rings index).first] }

/-- Frees so many packets of a queue. -/
def freeQueue (index : Slot) : ℕ → Memory → Memory
  | 0, m => m
  | n + 1, m => freeQueue index n (m.freeFirst index)

/-- A slot is overwritten with zeros. -/
def clear (index : Slot) (m : Memory) : Memory :=
  { m with rings := Function.update m.rings index { cells := fun _ => 0 } }

/-- A packet is allocated and put at the end of a queue. -/
def pushPacket (index : Slot) (connection : ℕ) (packet : Packet) (m : Memory) : Memory :=
  { m with
    rings := Function.update m.rings index ((m.rings index).push queuePackets m.packets.length)
    packets := m.packets ++ [packet]
    accepted := Function.update m.accepted connection (m.accepted connection ++ [m.packets.length]) }

end Memory

structure Store where
  server : Server := {}
  memory : Memory := {}

namespace Store

/-- The server with its queues as lists. -/
def view (st : Store) : Server :=
  { st.server with
    clients := fun i => { st.server.clients i with queue := st.memory.load (st.memory.live i) }
    wires := fun connection => st.memory.load (st.memory.sent connection) }

def next (st : Store) : Store := { st with server := st.server.next }

/-- The kernel takes the first packet of a queue. -/
def tookFirst (index : Slot) (connection : ℕ) (st : Store) : Store :=
  let address := (st.memory.rings index).first
  { server := st.server.modify index fun c => { c with bytes := c.bytes - st.memory.len address }
    memory := { st.memory.freeFirst index with
      sent := Function.update st.memory.sent connection (st.memory.sent connection ++ [address]) } }

def push (index : Slot) (connection : ℕ) (packet : Packet) (st : Store) : Store where
  server := st.server.modify index fun c => { c with bytes := c.bytes + packet.len }
  memory := st.memory.pushPacket index connection packet

def released (st : Store) : Store := { st with server := st.server.released }

/-! ### Queues and disconnects -/

section Queues

variable (outside : Outside)

/-- `disconnect`, of a connection that does not hold the lease. -/
def closeClient (index : Slot) (st : Store) : Store :=
  match (st.server.clients index).fd with
  | none => st
  | some _ =>
      { server := st.server.modify index fun c => { c with fd := none, bytes := 0, refresh := false }
        memory := st.memory.freeQueue index (st.memory.rings index).count }

/-- The loop of `flush`, with so many packets left. -/
def flushQueue (drop : Slot → Store → Store) (index : Slot) (connection : ℕ) : ℕ → Store → Store
  | 0, st => st
  | n + 1, st =>
      match outside.send st.server.asked with
      | .taken => flushQueue drop index connection n (st.next.tookFirst index connection)
      | .again => st.next
      | .failed => drop index st.next

def flush (drop : Slot → Store → Store) (index : Slot) (st : Store) : Store :=
  match (st.server.clients index).fd with
  | none => st
  | some connection => flushQueue outside drop index connection (st.memory.rings index).count st

def enqueue (drop : Slot → Store → Store) (index : Slot) (packet : Packet) (st : Store) : Store :=
  let st := flush outside drop index st
  match (st.server.clients index).fd with
  | none => st
  | some connection =>
      if controlPayload < packet.payload.length || (st.memory.rings index).count == queuePackets
          || queueBytes < (st.server.clients index).bytes + controlHeader + packet.payload.length then
        drop index st
      else if outside.malloc st.server.asked then
        flush outside drop index (st.next.push index connection packet)
      else drop index st.next

/-- A packet for every connection that hears it: `state_changed`, `control_broadcast` and
`window_changed`. -/
def broadcast (drop : Slot → Store → Store) (hears : Client → Bool) (packet : Server → Packet) (st : Store) :
    Store :=
  (List.finRange 16).foldl (fun st i =>
    if (st.server.clients i).fd ≠ none ∧ hears (st.server.clients i) then
      enqueue outside drop i (packet st.server) st
    else st) st

def stateChanged (drop : Slot → Store → Store) : Store → Store :=
  broadcast outside drop (fun c => c.role ≠ 0) Server.leaseEvent

def releaseOwner (st : Store) : Store :=
  stateChanged outside closeClient st.released

def disconnect (index : Slot) (st : Store) : Store :=
  match (st.server.clients index).fd with
  | none => st
  | some _ =>
      if st.server.owner = some index then releaseOwner outside (closeClient index st)
      else closeClient index st

end Queues

/-! ### Everything that touches a queue -/

/-- What the rest of the server does to the queues and what they depend on. -/
inductive Operation
  | enqueue (index : Slot) (packet : Packet)
  | flush (index : Slot)
  | disconnect (index : Slot)
  | broadcast (hears : Client → Bool) (packet : Server → Packet)
  /-- END. -/
  | releaseOwner
  /-- BEGIN. -/
  | own (index : Slot)
  /-- HELLO. -/
  | join (index : Slot) (role sources : UInt32)
  /-- A connection is accepted into a free slot, or closed again. -/
  | accept

def own (index : Slot) (st : Store) : Store where
  server := { st.server with
    owner := some index
    generation := st.server.generation + 1
    changes := st.server.changes + 1 }
  memory := st.memory

def join (index : Slot) (role sources : UInt32) (st : Store) : Store where
  server := st.server.modify index fun c => { c with role := role, sources := sources }
  memory := st.memory

/-- `memset`: the slot of a new connection starts from nothing. -/
def acceptClient (st : Store) : Store :=
  match (List.finRange 16).find? fun i => (st.server.clients i).fd = none with
  | none => { st with server := { st.server with connections := st.server.connections + 1 } }
  | some i =>
      { server := { st.server.modify i fun _ => { fd := some st.server.connections } with
          connections := st.server.connections + 1 }
        memory := st.memory.clear i }

variable (outside : Outside)

def operate (st : Store) : Operation → Store
  | .enqueue index packet => enqueue outside (disconnect outside) index packet st
  | .flush index => flush outside (disconnect outside) index st
  | .disconnect index => disconnect outside index st
  | .broadcast hears packet => broadcast outside (disconnect outside) hears packet st
  | .releaseOwner => releaseOwner outside st
  | .own index => own index st
  | .join index role sources => join index role sources st
  | .accept => acceptClient st

/-- A run of operations on an idle server. -/
def operated (operations : List Operation) : Store :=
  operations.foldl (operate outside) {}

end Store

end OscmixDesk.Backend
