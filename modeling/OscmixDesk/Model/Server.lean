/-
**The control server of the backend** (`control.c`, as patches 0003, 0008, 0009 and 0016 leave it).

One process serves sixteen connections, answers each request with one reply, and tells every connection
of each lease, refresh window and observation. A send or an allocation that fails closes a connection,
and where that connection holds the lease its end is broadcast in turn, from inside the broadcast that
failed. The clock, the sends, the allocations and the OSC handler are not the server's own: an `Outside`
answers by the number of the question, so that a statement about every `Outside` is one about every
placement of a failure, an overflow or an expiry.

The mutual recursion of `control.c` is two deep: `release_owner` takes the lease away before it
broadcasts, so the disconnects inside that broadcast only close. `flush`, `enqueue` and `stateChanged`
take the disconnect they use as an argument; `releaseOwner_eq` (in `Proof.Authority`) is the source's own
equation.
-/

import Mathlib.Algebra.Order.Ring.Rat
import Mathlib.Data.List.FinRange
import Mathlib.Tactic.Linarith

namespace OscmixDesk.Backend

/-! ### The protocol (`control.h`) -/

/-- `CONTROL_CLIENTS` slots. -/
abbrev Slot := Fin 16

def controlPayload : ℕ := 8192
def controlHeader : ℕ := 24
def queuePackets : ℕ := 1024
def queueBytes : ℕ := 256 * 1024
def leaseIdle : ℚ := 5
def leaseTotal : ℚ := 90
def refreshWindow : ℚ := 10
def helloTimeout : ℚ := 3

/-- `enum control_kind`, of what a client asks. -/
inductive Request
  | hello
  | begin
  | «end»
  | keepalive
  | write
  | refresh
  deriving DecidableEq, Repr

/-- `enum control_role`; 0 is a connection that has not said HELLO. -/
def controlDesk : UInt32 := 1
def controlGui : UInt32 := 2
def controlReader : UInt32 := 3

/-- `enum control_status`, as far as it is sent. -/
def controlOk : UInt32 := 0
def controlBusy : UInt32 := 1
def controlInvalid : UInt32 := 2
def controlNotOwner : UInt32 := 6

/-- `enum control_source`. -/
inductive Source
  | device
  | derived
  | meters
  deriving DecidableEq, Repr

def Source.bit : Source → UInt32
  | .device => 1
  | .derived => 2
  | .meters => 4

/-- The kind of a packet the server sends. -/
inductive Kind
  | reply (request : Request)
  | event
  | observation
  | window
  deriving DecidableEq, Repr

/-- What the reply to HELLO carries: the epoch, the process, the version and the device's name. -/
structure Hello where
  epoch : List UInt8
  pid : UInt32
  version : UInt32
  name : List UInt8
  deriving DecidableEq, Repr

/-- The data behind a header. -/
inductive Payload
  | none
  | hello (reply : Hello)
  | osc (data : List UInt8)
  deriving DecidableEq, Repr

/-- The name ends in one NUL. -/
def Payload.length : Payload → ℕ
  | .none => 0
  | .hello reply => reply.epoch.length + 4 + 4 + reply.name.length + 1
  | .osc data => data.length

/-- A packet the server sends. -/
structure Packet where
  kind : Kind
  request : UInt32
  code : UInt32
  sequence : UInt64
  payload : Payload
  deriving DecidableEq, Repr

def Packet.len (packet : Packet) : ℕ := controlHeader + packet.payload.length

/-- A packet a client sends: `none` is a kind the protocol does not know. -/
structure Frame where
  kind : Option Request
  request : UInt32
  code : UInt32
  token : UInt64
  data : List UInt8
  deriving DecidableEq, Repr

/-! ### What the server meets -/

/-- What one `send` comes to; one that is interrupted is made again. -/
inductive Sending
  | taken
  | again
  | failed
  deriving DecidableEq, Repr

/-- What the OSC handler does with a command: the deliveries it broadcasts, and whether it fails. -/
structure Handled where
  broadcasts : List (List UInt8 × Source)
  failed : Bool
  deriving Repr

/-- The answers the server gets, by the number of its question, and what it was opened with. -/
structure Outside where
  now : ℕ → ℚ
  send : ℕ → Sending
  malloc : ℕ → Bool
  /-- `control_command`. -/
  command : ℕ → List UInt8 → Handled
  /-- Whether `accept4`, the credentials and the socket options all succeed. -/
  accepted : ℕ → Bool
  /-- Whether the OSC reader takes the type tags and arguments of a command. -/
  reads : List UInt8 → Bool
  epoch : List UInt8
  pid : UInt32
  deviceName : List UInt8

/-- What the reply to HELLO carries; 1 is the protocol's implementation version. -/
def Outside.hello (outside : Outside) : Hello :=
  ⟨outside.epoch, outside.pid, 1, outside.deviceName⟩

/-! ### The state -/

/-- A slot. `fd` is the number of its connection, counted from the start. -/
structure Client where
  fd : Option ℕ := none
  role : UInt32 := 0
  sources : UInt32 := 0
  request : UInt32 := 0
  accepted : ℚ := 0
  refresh : Bool := false
  queue : List Packet := []
  bytes : ℕ := 0

/-- A WRITE that was executed: who sent it with which token, and whose the lease was then. -/
structure Execution where
  index : Slot
  role : UInt32
  token : UInt64
  owner : Option Slot
  generation : UInt64
  changes : ℕ
  data : List UInt8
  deriving DecidableEq, Repr

/-- The statics of `control.c`, and what the process leaves behind: the packets each connection took,
the commands executed, and how many leases began or ended and deliveries were broadcast so far. -/
structure Server where
  clients : Slot → Client := fun _ => {}
  owner : Option Slot := none
  generation : UInt64 := 1
  observation : UInt64 := 0
  window : UInt64 := 0
  idleUntil : ℚ := 0
  hardUntil : ℚ := 0
  refreshUntil : ℚ := 0
  refreshing : Bool := false
  asked : ℕ := 0
  connections : ℕ := 0
  wires : ℕ → List Packet := fun _ => []
  executed : List Execution := []
  changes : ℕ := 0
  broadcasts : ℕ := 0

namespace Server

/-- The state once a question has been answered. -/
def next (s : Server) : Server := { s with asked := s.asked + 1 }

/-- Changes one slot. -/
def modify (index : Slot) (change : Client → Client) (s : Server) : Server :=
  { s with clients := Function.update s.clients index (change (s.clients index)) }

/-- The kernel takes the first packet of a queue. -/
def took (index : Slot) (connection : ℕ) (packet : Packet) (rest : List Packet) (s : Server) :
    Server :=
  { s.modify index fun c => { c with queue := rest, bytes := c.bytes - packet.len } with
    wires := Function.update s.wires connection (s.wires connection ++ [packet]) }

/-- A packet is put at the end of a queue. -/
def push (index : Slot) (packet : Packet) : Server → Server :=
  modify index fun c => { c with queue := c.queue ++ [packet], bytes := c.bytes + packet.len }

/-- The lease ends. -/
def released (s : Server) : Server :=
  { s with owner := none, generation := s.generation + 1, changes := s.changes + 1 }

/-- A LEASE event of the moment. -/
def leaseEvent (s : Server) : Packet :=
  ⟨.event, 0, if s.owner = none then controlOk else controlBusy, s.generation, .none⟩

end Server

/-! ### Queues and disconnects -/

section Queues

variable (outside : Outside)

/-- `disconnect`, of a connection that does not hold the lease. -/
def closeClient (index : Slot) (s : Server) : Server :=
  match (s.clients index).fd with
  | none => s
  | some _ => s.modify index fun c => { c with fd := none, queue := [], bytes := 0, refresh := false }

/-- The loop of `flush`. -/
def flushQueue (drop : Slot → Server → Server) (index : Slot) (connection : ℕ) :
    List Packet → Server → Server
  | [], s => s
  | packet :: rest, s =>
      match outside.send s.asked with
      | .taken => flushQueue drop index connection rest (s.next.took index connection packet rest)
      | .again => s.next
      | .failed => drop index s.next

/-- Sends the queue of a slot as far as the kernel takes it. -/
def flush (drop : Slot → Server → Server) (index : Slot) (s : Server) : Server :=
  match (s.clients index).fd with
  | none => s
  | some connection => flushQueue outside drop index connection (s.clients index).queue s

/-- Queues a packet; a slow consumer, or one no packet can be allocated for, is disconnected. -/
def enqueue (drop : Slot → Server → Server) (index : Slot) (packet : Packet) (s : Server) : Server :=
  let s := flush outside drop index s
  if (s.clients index).fd = none then s
  else if controlPayload < packet.payload.length || (s.clients index).queue.length == queuePackets
      || queueBytes < (s.clients index).bytes + controlHeader + packet.payload.length then
    drop index s
  else if outside.malloc s.asked then flush outside drop index (s.next.push index packet)
  else drop index s.next

/-- Tells every connection whose the lease is. -/
def stateChanged (drop : Slot → Server → Server) (s : Server) : Server :=
  (List.finRange 16).foldl (fun s i =>
    if (s.clients i).fd ≠ none ∧ (s.clients i).role ≠ 0 then
      enqueue outside drop i s.leaseEvent s
    else s) s

def releaseOwner (s : Server) : Server :=
  stateChanged outside closeClient s.released

def disconnect (index : Slot) (s : Server) : Server :=
  match (s.clients index).fd with
  | none => s
  | some _ =>
      if s.owner = some index then releaseOwner outside (closeClient index s)
      else closeClient index s

end Queues

/-! ### Replies and broadcasts -/

section Serving

variable (outside : Outside)

def reply (index : Slot) (kind : Request) (request code : UInt32) (s : Server) : Server :=
  enqueue outside (disconnect outside) index ⟨.reply kind, request, code, s.generation, .none⟩ s

def controlBroadcast (bytes : List UInt8) (source : Source) (s : Server) : Server :=
  let s := { s with observation := s.observation + 1, broadcasts := s.broadcasts + 1 }
  (List.finRange 16).foldl (fun s i =>
    if (s.clients i).fd ≠ none ∧ (s.clients i).sources &&& source.bit ≠ 0 then
      enqueue outside (disconnect outside) i ⟨.observation, 0, source.bit, s.observation, .osc bytes⟩ s
    else s) s

def windowChanged (code : UInt32) (s : Server) : Server :=
  (List.finRange 16).foldl (fun s i =>
    if (s.clients i).fd ≠ none ∧ (s.clients i).role ≠ 0 then
      enqueue outside (disconnect outside) i ⟨.window, 0, code, s.window, .none⟩ s
    else s) s

/-- The deliveries of `control_command`. -/
def deliver (deliveries : List (List UInt8 × Source)) (s : Server) : Server :=
  deliveries.foldl (fun s delivery => controlBroadcast outside delivery.1 delivery.2 s) s

/-- `"/refresh\0\0\0\0,\0\0\0"`. -/
def refreshMessage : List UInt8 :=
  [47, 114, 101, 102, 114, 101, 115, 104, 0, 0, 0, 0, 44, 0, 0, 0]

/-- Opens a refresh window. -/
def refresh (s : Server) : Server :=
  let s := { s with clients := fun i => { s.clients i with refresh := false } }
  let s := { s.next with
    refreshUntil := outside.now s.asked + refreshWindow
    refreshing := true
    window := s.window + 1 }
  let s := windowChanged outside controlBusy s
  deliver outside (outside.command s.asked refreshMessage).broadcasts s.next

/-- The loop of `control_tick`. -/
def tickClients (current : ℚ) : List Slot → Server → Server
  | [], s => s
  | i :: rest, s =>
      if (s.clients i).fd = none then tickClients current rest s
      else if (s.clients i).role = 0 ∧ current - (s.clients i).accepted ≥ helloTimeout then
        tickClients current rest (disconnect outside i s)
      else if (s.clients i).refresh ∧ s.owner = none ∧ current ≥ s.refreshUntil then refresh outside s
      else tickClients current rest s

/-- Ends a lease whose time is up. -/
def expireLease (current : ℚ) (s : Server) : Server :=
  match s.owner with
  | none => s
  | some owner =>
      if current ≥ s.idleUntil ∨ current ≥ s.hardUntil then disconnect outside owner s else s

def closeWindow (current : ℚ) (s : Server) : Server :=
  if s.refreshing ∧ current ≥ s.refreshUntil then
    windowChanged outside controlOk { s with refreshing := false }
  else s

def controlTick (s : Server) : Server :=
  let current := outside.now s.asked
  tickClients outside current (List.finRange 16)
    (closeWindow outside current (expireLease outside current s.next))

/-! ### Requests -/

/-- The refresh window cannot be bypassed by a pattern, a raw register or `/refresh` itself. -/
def validPath (path : List UInt8) : Bool :=
  1 < path.length && path.all (fun p => 33 ≤ p && p ≤ 126 && !([42, 63, 91, 93, 123, 125].contains p))
    && !([47, 114, 101, 102, 114, 101, 115, 104].isPrefixOf path)
    && !([47, 114, 101, 103, 105, 115, 116, 101, 114].isPrefixOf path)

/-- One aligned OSC message on a path a client may write. -/
def validCommand (data : List UInt8) : Bool :=
  data.length % 4 == 0 && data.head? == some 47 && data.contains 0
    && validPath (data.takeWhile (· != 0)) && outside.reads data

def hasLease (index : Slot) (token : UInt64) (s : Server) : Bool :=
  s.owner = some index ∧ token = s.generation

def get32 (data : List UInt8) : UInt32 :=
  data.foldl (fun n byte => n <<< 8 ||| byte.toUInt32) 0

def hello (index : Slot) (request role : UInt32) (data : List UInt8) (s : Server) : Server :=
  if (s.clients index).role ≠ 0 ∨ data.length ≠ 4 ∨ role < controlDesk ∨ controlReader < role then
    disconnect outside index s
  else if get32 data = 0 ∨ get32 data &&& ~~~7 ≠ 0 then disconnect outside index s
  else
    let s := s.modify index fun c => { c with role := role, sources := get32 data }
    let s := enqueue outside (disconnect outside) index
      ⟨.reply .hello, request, controlOk, s.generation, .hello outside.hello⟩ s
    enqueue outside (disconnect outside) index s.leaseEvent s

def beginLease (index : Slot) (request : UInt32) (s : Server) : Server :=
  if (s.clients index).role ≠ controlDesk then
    reply outside index .begin request controlNotOwner s
  else if s.owner ≠ none then reply outside index .begin request controlBusy s
  else
    let s := { s with
      owner := some index
      generation := s.generation + 1
      changes := s.changes + 1 }
    let s := { s.next with hardUntil := outside.now s.asked + leaseTotal }
    let s := { s.next with idleUntil := outside.now s.asked + leaseIdle }
    stateChanged outside (disconnect outside) (reply outside index .begin request controlOk s)

def endLease (index : Slot) (request : UInt32) (token : UInt64) (s : Server) : Server :=
  if hasLease index token s then
    reply outside index .end request controlOk (releaseOwner outside s)
  else reply outside index .end request controlNotOwner s

def keepalive (index : Slot) (request : UInt32) (token : UInt64) (s : Server) : Server :=
  if hasLease index token s then
    reply outside index .keepalive request controlOk
      { s.next with idleUntil := outside.now s.asked + leaseIdle }
  else reply outside index .keepalive request controlNotOwner s

/-- What a WRITE executes is recorded with the owner and the generation of the moment. -/
def execute (index : Slot) (token : UInt64) (data : List UInt8) (s : Server) : Server :=
  { s with executed := s.executed ++
      [⟨index, (s.clients index).role, token, s.owner, s.generation, s.changes, data⟩] }

def write (index : Slot) (request : UInt32) (token : UInt64) (data : List UInt8) (s : Server) :
    Server :=
  if !(hasLease index token s
      || decide ((s.clients index).role = controlGui ∧ s.owner = none ∧ token = s.generation)) then
    reply outside index .write request controlBusy s
  else if !validCommand outside data then reply outside index .write request controlInvalid s
  else
    let handled := outside.command s.asked data
    let s := deliver outside handled.broadcasts (execute index token data s).next
    let s := if hasLease index token s then
        { s.next with idleUntil := outside.now s.asked + leaseIdle }
      else s
    reply outside index .write request (if handled.failed then controlInvalid else controlOk) s

def requestRefresh (index : Slot) (request : UInt32) (token : UInt64) (s : Server) : Server :=
  let current := outside.now s.asked
  if s.owner ≠ none ∧ !hasLease index token s then
    refused s
  else if current < s.refreshUntil then refused s.next
  else
    -- the receipt boundary precedes every reply to this request
    let s := reply outside index .refresh request controlOk s.next
    if (s.clients index).fd ≠ none then refresh outside s else s
where
  refused (s : Server) : Server :=
    reply outside index .refresh request controlBusy
      (if (s.clients index).role = controlGui then
        s.modify index fun c => { c with refresh := true }
      else s)

/-- The requests other than HELLO. -/
def serve (index : Slot) (frame : Frame) (s : Server) : Server :=
  match frame.kind with
  | some .begin => beginLease outside index frame.request s
  | some .end => endLease outside index frame.request frame.token s
  | some .keepalive => keepalive outside index frame.request frame.token s
  | some .write => write outside index frame.request frame.token frame.data s
  | some .refresh => requestRefresh outside index frame.request frame.token s
  | _ => disconnect outside index s

/-- One received packet; `none` is one without a header of this protocol. -/
def dispatch (index : Slot) (packet : Option Frame) (s : Server) : Server :=
  let s := controlTick outside s
  if (s.clients index).fd = none then s
  else match packet with
    | none => disconnect outside index s
    | some frame =>
        if frame.request = 0 ∨ (s.clients index).request = 0xffffffff
            ∨ frame.request ≠ (s.clients index).request + 1 then disconnect outside index s
        else
          let s := s.modify index fun c => { c with request := frame.request }
          if frame.kind = some .hello then hello outside index frame.request frame.code frame.data s
          else if (s.clients index).role = 0 ∨ frame.code ≠ 0
              ∨ (frame.kind ≠ some .write ∧ frame.data ≠ []) then disconnect outside index s
          else serve outside index frame s

/-! ### The loop -/

/-- A new connection takes the first free slot. -/
def acceptClient (s : Server) : Server :=
  if !outside.accepted s.asked then s.next
  else match (List.finRange 16).find? fun i => (s.clients i).fd = none with
    | none => { s.next with connections := s.connections + 1 }
    | some i =>
        { s.next.next.modify i fun _ =>
            { fd := some s.connections, accepted := outside.now (s.asked + 1) } with
          connections := s.connections + 1 }

/-- What `recvmsg` gives. -/
inductive Received
  | nothing
  | ended
  | packet (packet : Option Frame)
  deriving DecidableEq, Repr

/-- Reads one packet of a slot. -/
def receive (index : Slot) (received : Received) (s : Server) : Server :=
  if (s.clients index).fd = none then s
  else match received with
    | .nothing => s
    | .ended => disconnect outside index s
    | .packet packet => dispatch outside index packet s

/-- What `poll` saw of a slot, and what `recvmsg` gives where it is readable. -/
structure Polled where
  fd : Option ℕ
  hangUp : Bool
  writable : Bool
  readable : Option Received
  deriving DecidableEq, Repr

/-- The part of `control_dispatch` for one slot. -/
def serveSlot (index : Slot) (polled : Polled) (s : Server) : Server :=
  if (s.clients index).fd = none ∨ (s.clients index).fd ≠ polled.fd then s
  else if polled.hangUp then disconnect outside index s
  else
    let s := if polled.writable then flush outside (disconnect outside) index s else s
    match polled.readable with
    | none => s
    | some received => receive outside index received s

def controlDispatch (incoming : Bool) (polled : Slot → Polled) (s : Server) : Server :=
  let s := controlTick outside s
  let s := if incoming then acceptClient outside s else s
  (List.finRange 16).foldl (fun s i => serveSlot outside i (polled i) s) s

/-- What the process does at a time. The MIDI side broadcasts what the device reports. -/
inductive Action
  | tick
  | accept
  | hangUp (index : Slot)
  | writable (index : Slot)
  | receive (index : Slot) (received : Received)
  | report (bytes : List UInt8) (source : Source)
  deriving DecidableEq, Repr

def act (s : Server) : Action → Server
  | .tick => controlTick outside s
  | .accept => acceptClient outside s
  | .hangUp index => disconnect outside index s
  | .writable index => flush outside (disconnect outside) index s
  | .receive index received => receive outside index received s
  | .report bytes source => controlBroadcast outside bytes source s

/-- A run of the server. -/
def run (actions : List Action) (s : Server) : Server :=
  actions.foldl (act outside) s

end Serving

end OscmixDesk.Backend
