/-
**The clients of the control server** (`backend.Control`), and the two sides together.

A `Control` sends one request at a time and judges every packet it reads: a reply must be the one it waits
for, a lease event must fit the lease it holds, an observation must follow the last one. What it judges by
is its `View`; a packet the view does not take closes the connection as broken. A `Net` is the server with
any number of `Control`s and of other clients: each connection carries requests one way and packets the
other, both in order, and any party may move next.
-/

import OscmixDesk.Model.Server

namespace OscmixDesk.Backend

/-! ### One client -/

def controlQueueBytes : ℕ := 256 * 1024
def controlQueuePackets : ℕ := 4096

/-- Why a client closes its connection as broken. -/
inductive ProtocolProblem
  | packetSize
  | unexpectedReply
  | leaseEvent
  | leaseChanged
  | windowEvent
  | observation
  | unexpectedEvent
  | unexpectedAcknowledgement
  | acknowledgement
  | handshake
  | incompatible
  | leaseLost
  | unfinished
  | leaseChangedInWrite
  | delivery
  deriving DecidableEq, Repr

/-- Why a client closes its connection. -/
inductive Closing
  | protocol (problem : ProtocolProblem)
  /-- Its queue of observations is full. -/
  | overflow
  /-- A request is too long, or the last number is used. -/
  | limits
  /-- It is cancelled, it waited too long, or the connection is lost. -/
  | left
  deriving DecidableEq, Repr

/-- The request a client waits on. -/
inductive Call
  | hello
  | begin
  | finish (token : UInt64)
  | heartbeat
  | write
  | requestDump
  deriving DecidableEq, Repr

def Call.kind : Call → Request
  | .hello => .hello
  | .begin => .begin
  | .finish _ => .end
  | .heartbeat => .keepalive
  | .write => .write
  | .requestDump => .refresh

/-- What a client judges a packet by. -/
structure View where
  sources : UInt32
  requestId : UInt32 := 0
  lease : Option UInt64 := none
  generation : UInt64 := 0
  lastSequence : UInt64 := 0
  epoch : List UInt8 := []
  leaseHeld : Bool := false
  pending : Option Call := none
  deriving DecidableEq, Repr

namespace View

variable (outside : Outside)

/-- `_event`, without the queue. -/
def event (packet : Packet) (v : View) : Except ProtocolProblem View :=
  if packet.request ≠ 0 then .error .unexpectedReply
  else match packet.kind with
    | .event =>
        if packet.payload.length ≠ 0 ∨ (packet.code ≠ controlOk ∧ packet.code ≠ controlBusy)
            ∨ packet.sequence < v.generation then .error .leaseEvent
        else if v.lease ≠ none ∧ (v.lease ≠ some packet.sequence ∨ packet.code ≠ controlBusy) then
          .error .leaseChanged
        else .ok { v with generation := packet.sequence, leaseHeld := packet.code = controlBusy }
    | .window =>
        if packet.payload.length ≠ 0 ∨ (packet.code ≠ controlOk ∧ packet.code ≠ controlBusy) then
          .error .windowEvent
        else .ok v
    | .observation =>
        if (packet.code ≠ 1 ∧ packet.code ≠ 2 ∧ packet.code ≠ 4) ∨ packet.code &&& v.sources = 0
            ∨ packet.payload.length = 0 ∨ packet.payload.length % 4 ≠ 0
            ∨ packet.sequence ≤ v.lastSequence ∨ v.epoch = [] then .error .observation
        else .ok { v with lastSequence := packet.sequence }
    | .reply _ => .error .unexpectedEvent

/-- The reply to HELLO; the kernel names the process behind the socket. -/
def handshake (packet : Packet) (v : View) : Except ProtocolProblem View :=
  match packet.payload with
  | .hello hello =>
      if packet.code ≠ controlOk ∨ hello.name.contains 0 then .error .handshake
      else if hello.pid ≠ outside.pid ∨ hello.version ≠ 1 then .error .incompatible
      else if !(ByteArray.mk hello.name.toArray).validateUTF8 then .error .handshake
      else .ok { v with epoch := hello.epoch, generation := packet.sequence }
  | _ => .error .handshake

/-- What a client does with the reply it waited for. -/
def answered (packet : Packet) (v : View) : Call → Except ProtocolProblem View
  | .hello => v.handshake outside packet
  | .begin =>
      if packet.code = controlOk then
        .ok { v with lease := some packet.sequence, generation := packet.sequence }
      else .ok v
  | .finish token =>
      if packet.code ≠ 0 ∨ packet.sequence ≤ token then .error .unfinished
      else .ok { v with generation := packet.sequence }
  | .heartbeat =>
      if packet.code ≠ 0 ∨ some packet.sequence ≠ v.lease then .error .leaseLost else .ok v
  | .write =>
      if packet.code = controlOk ∧ some packet.sequence ≠ v.lease then .error .leaseChangedInWrite
      else .ok v
  | .requestDump => .ok v

/-- The check of `_acknowledgement` on a reply, and what follows from it. -/
def acknowledge (call : Call) (kind : Request) (packet : Packet) (v : View) :
    Except ProtocolProblem View :=
  if kind ≠ call.kind ∨ packet.request ≠ v.requestId then .error .unexpectedAcknowledgement
  else if kind ≠ .hello ∧ (packet.payload.length ≠ 0 ∨ (packet.code ≠ controlOk
      ∧ packet.code ≠ controlBusy ∧ packet.code ≠ controlInvalid ∧ packet.code ≠ controlNotOwner)) then
    .error .acknowledgement
  else answered outside packet { v with pending := none } call

/-- One packet; a reply is a reply only to a client that waits. -/
def receive (packet : Packet) (v : View) : Except ProtocolProblem View :=
  if controlPayload < packet.payload.length then .error .packetSize
  else match packet.kind, v.pending with
    | .reply kind, some call => v.acknowledge outside call kind packet
    | _, _ => v.event packet

end View

/-- One delivery, and where it came from. -/
structure Delivery where
  origin : UInt32
  sequence : UInt64
  payload : Payload
  deriving DecidableEq, Repr

/-- A connection of `backend.Control`. -/
structure Control where
  view : View
  closed : Option Closing := none
  queue : List Delivery := []
  queueBytes : ℕ := 0
  deriving DecidableEq, Repr

/-- What a program does with its connection. -/
inductive Deed
  | begin
  | heartbeat
  | finish
  | write (data : List UInt8)
  | requestDump
  /-- Takes the next delivery. -/
  | messages
  /-- Gives up: a stop, a time limit or a lost connection. -/
  | leave
  deriving DecidableEq, Repr

def put32 (n : UInt32) : List UInt8 :=
  [(n >>> 24).toUInt8, (n >>> 16).toUInt8, (n >>> 8).toUInt8, n.toUInt8]

namespace Control

def close (reason : Closing) (c : Control) : Control where
  view := { c.view with lease := none }
  closed := some reason

def discard (c : Control) : Control := { c with queue := [], queueBytes := 0 }

/-- `_send_request`. -/
def sendRequest (call : Call) (code : UInt32) (data : List UInt8) (token : UInt64) (c : Control) :
    Control × List Frame :=
  if controlPayload < data.length ∨ c.view.requestId = 0xffffffff then (c.close .limits, [])
  else ({ c with view := { c.view with requestId := c.view.requestId + 1, pending := some call } },
    [⟨some call.kind, c.view.requestId + 1, code, token, data⟩])

/-- A new connection and its HELLO. -/
def connect (reader : Bool) (sources : UInt32) : Control × List Frame :=
  sendRequest .hello (if reader then controlReader else controlDesk) (put32 sources) 0
    { view := { sources := sources } }

/-- Puts an observation into the queue, which overflows. -/
def observe (packet : Packet) (c : Control) : Control :=
  if controlQueuePackets ≤ c.queue.length ∨ controlQueueBytes < c.queueBytes + packet.len then
    c.close .overflow
  else { c with
    queue := c.queue ++ [⟨packet.code, packet.sequence, packet.payload⟩]
    queueBytes := c.queueBytes + packet.len }

/-- Reads one packet. No observation counts that came before the reply to BEGIN or REFRESH. -/
def receive (outside : Outside) (packet : Packet) (c : Control) : Control :=
  match c.view.receive outside packet with
  | .error problem => c.close (.protocol problem)
  | .ok view =>
      match packet.kind with
      | .observation => observe packet { c with view := view }
      | .reply .begin => discard { c with view := view }
      | .reply .refresh => discard { c with view := view }
      | _ => { c with view := view }

variable (decodes : List UInt8 → Bool)

/-- `next_delivery` and `messages`: a delivery of the device is decoded as a whole. -/
def messages (c : Control) : Control :=
  match c.queue with
  | [] => c
  | delivery :: rest =>
      let c := { c with
        queue := rest
        queueBytes := c.queueBytes - (controlHeader + delivery.payload.length) }
      match delivery.payload with
      | .osc data => if delivery.origin = 1 ∧ !decodes data then c.close (.protocol .delivery) else c
      | _ => if delivery.origin = 1 then c.close (.protocol .delivery) else c

/-- What a deed does to the connection, and the requests it sends. A request is refused before it is sent
where the lease does not allow it, and one request is answered before the next. -/
def act (c : Control) : Deed → Control × List Frame
  | .leave => if c.closed = none then (c.close .left, []) else (c, [])
  | .messages =>
      if c.closed = none ∧ c.view.pending = none then (c.messages decodes, []) else (c, [])
  | .begin =>
      if c.closed = none ∧ c.view.pending = none ∧ c.view.lease = none then
        c.sendRequest .begin 0 [] c.view.generation
      else (c, [])
  | .heartbeat => ifOwner c fun token => c.sendRequest .heartbeat 0 [] token
  | .finish => ifOwner c fun token =>
      sendRequest (.finish token) 0 [] token { c with view := { c.view with lease := none } }
  | .write data => ifOwner c fun token => c.sendRequest .write 0 data token
  | .requestDump =>
      if c.closed = none ∧ c.view.pending = none then
        c.sendRequest .requestDump 0 [] (c.view.lease.getD c.view.generation)
      else (c, [])
where
  ifOwner (c : Control) (next : UInt64 → Control × List Frame) : Control × List Frame :=
    match c.view.lease with
    | some token => if c.closed = none ∧ c.view.pending = none then next token else (c, [])
    | none => (c, [])

end Control

/-! ### Both sides -/

/-- The server, the `Control` behind a connection if it has one, how many packets each has read, and the
requests on their way. -/
structure Net where
  server : Server := {}
  control : ℕ → Option Control := fun _ => none
  taken : ℕ → ℕ := fun _ => 0
  mail : ℕ → List Frame := fun _ => []

namespace Net

/-- The number of a new connection, where the server takes it. -/
def isNew (outside : Outside) (net : Net) : Prop :=
  (acceptClient outside net.server).connections = net.server.connections + 1

/-- One party moves. What the MIDI side reports is a delivery. -/
inductive Step (outside : Outside) (decodes : List UInt8 → Bool) (delivery : List UInt8 → Prop) :
    Net → Net → Prop
  | tick (net : Net) :
      Step outside decodes delivery net { net with server := controlTick outside net.server }
  | hangUp (net : Net) (index : Slot) :
      Step outside decodes delivery net { net with server := disconnect outside index net.server }
  | writable (net : Net) (index : Slot) :
      Step outside decodes delivery net
        { net with server := flush outside (disconnect outside) index net.server }
  | ended (net : Net) (index : Slot) :
      Step outside decodes delivery net
        { net with server := receive outside index .ended net.server }
  | report (net : Net) (bytes : List UInt8) (source : Source) : delivery bytes →
      Step outside decodes delivery net
        { net with server := controlBroadcast outside bytes source net.server }
  /-- Another client connects. -/
  | other (net : Net) :
      Step outside decodes delivery net { net with server := acceptClient outside net.server }
  /-- Another client sends anything. -/
  | foreign (net : Net) (index : Slot) (connection : ℕ) (packet : Option Frame) :
      (net.server.clients index).fd = some connection → net.control connection = none →
      Step outside decodes delivery net
        { net with server := receive outside index (.packet packet) net.server }
  /-- A `Control` connects, and says HELLO. -/
  | connect (net : Net) (reader : Bool) (sources : UInt32) : net.isNew outside →
      sources ≠ 0 → sources &&& ~~~7 = 0 →
      Step outside decodes delivery net
        { net with
          server := acceptClient outside net.server
          control := Function.update net.control net.server.connections
            (some (Control.connect reader sources).1)
          mail := Function.update net.mail net.server.connections (Control.connect reader sources).2 }
  /-- The server reads the next request of a `Control`. -/
  | request (net : Net) (index : Slot) (connection : ℕ) (c : Control) (frame : Frame)
      (rest : List Frame) : (net.server.clients index).fd = some connection →
      net.control connection = some c → net.mail connection = frame :: rest →
      Step outside decodes delivery net
        { net with
          server := receive outside index (.packet (some frame)) net.server
          mail := Function.update net.mail connection rest }
  /-- A `Control` reads the next packet of its connection. -/
  | read (net : Net) (connection : ℕ) (c : Control) (packet : Packet) :
      net.control connection = some c → c.closed = none →
      (net.server.wires connection)[net.taken connection]? = some packet →
      Step outside decodes delivery net
        { net with
          control := Function.update net.control connection (some (c.receive outside packet))
          taken := Function.update net.taken connection (net.taken connection + 1) }
  /-- The program behind a `Control` goes on. -/
  | act (net : Net) (connection : ℕ) (c : Control) (deed : Deed) : net.control connection = some c →
      Step outside decodes delivery net
        { net with
          control := Function.update net.control connection (some (c.act decodes deed).1)
          mail := Function.update net.mail connection
            (net.mail connection ++ (c.act decodes deed).2) }

/-- What the parties come to. -/
inductive Reachable (outside : Outside) (decodes : List UInt8 → Bool) (delivery : List UInt8 → Prop) :
    Net → Prop
  | start : Reachable outside decodes delivery {}
  | step {net net' : Net} : Reachable outside decodes delivery net →
      Step outside decodes delivery net net' → Reachable outside decodes delivery net'

end Net

end OscmixDesk.Backend
