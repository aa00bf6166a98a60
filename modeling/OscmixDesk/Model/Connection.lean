/-
**One connection, call by call** (`backend.Control`, its methods as they run).

A `Connection` is what a `Control` object holds, and what went over its socket. Each method is a program
over it: it waits, reads whatever the server sends, and judges every packet where it is read, be it inside
the wait for a reply, a pacing wait or a read of deliveries. What the socket gives, when a stop is asked
and what the clock says is not the connection's own: a `Surroundings` answers by the number of the
question. A loop of the source goes on for as many rounds as the `Surroundings` has patience for; a run
that is cut off there is not over, and says so.
-/

import OscmixDesk.Foundation.Effects
import OscmixDesk.Model.Control
import OscmixDesk.Model.Entries

namespace OscmixDesk.Backend

open Effects

/-! ### Packets on the wire (`protocol.py`) -/

/-- `ODK1`. -/
def magic : List UInt8 := [79, 68, 75, 49]
/-- Set in the kind of a reply. -/
def replyBit : UInt32 := 0x80000000
def leaseKind : UInt32 := 16
def observationKind : UInt32 := 17
def windowKind : UInt32 := 18
def protocolVersion : UInt32 := 1
/-- The length of what comes before the name in the reply to HELLO. -/
def helloReply : ℕ := 24

def Request.number : Request → UInt32
  | .hello => 1
  | .begin => 2
  | .end => 3
  | .keepalive => 4
  | .write => 5
  | .refresh => 6

def get64 (data : List UInt8) : UInt64 :=
  data.foldl (fun n byte => n <<< 8 ||| byte.toUInt64) 0

/-- A packet as it was read, whatever it says. -/
structure Raw where
  magic : List UInt8
  kind : UInt32
  request : UInt32
  code : UInt32
  sequence : UInt64
  payload : List UInt8
  deriving DecidableEq, Repr

def Raw.isReply (packet : Raw) : Bool :=
  packet.kind &&& replyBit ≠ 0

def unpack (packet : List UInt8) : Raw where
  magic := packet.take 4
  kind := get32 ((packet.drop 4).take 4)
  request := get32 ((packet.drop 8).take 4)
  code := get32 ((packet.drop 12).take 4)
  sequence := get64 ((packet.drop 16).take 8)
  payload := packet.drop controlHeader

/-- A request as it was sent. -/
structure Sent where
  kind : Request
  number : ℕ
  code : UInt32
  token : UInt64
  data : List UInt8
  deriving DecidableEq, Repr

/-! ### What a connection meets -/

/-- What one `recvmsg` comes to. -/
inductive Incoming
  /-- Nothing came in time. -/
  | quiet
  | failed
  | packet (bytes : List UInt8) (truncated : Bool)
  deriving DecidableEq, Repr

/-- What one `send` comes to. -/
inductive Outgoing
  | taken
  | incomplete
  | failed
  deriving DecidableEq, Repr

/-- The answers a connection gets, by the number of its question, and how long a loop may go on. -/
structure Surroundings where
  clock : ℕ → ℚ
  stop : ℕ → Bool
  incoming : ℕ → Incoming
  outgoing : ℕ → Outgoing
  /-- The process behind the socket, where the endpoint and the user are the expected ones. -/
  peer : Option UInt32
  /-- The OSC decoder, on a whole delivery. -/
  decode : List UInt8 → Option (List Message)
  patience : ℕ

/-- What a method raises. -/
inductive Trouble
  /-- The connection is no longer valid. -/
  | closed
  | cancelled
  | limits
  | sending
  | incomplete
  | receiving
  | disconnected
  | timedOut
  | framing
  | overflow
  | protocol (problem : ProtocolProblem)
  /-- The endpoint or its process is not the expected one. -/
  | peer
  | alreadyOwner
  | cannotOwn
  | otherOwner
  | notOwner
  | noWindow
  | writeFailed (cause : Trouble) (written unwritten : List Path)
  /-- A command that cannot be encoded. -/
  | encoding
  | refused (code : UInt32)
  /-- The run is not over. -/
  | running
  deriving DecidableEq, Repr

/-- What went over the socket. -/
inductive Occurrence
  | sent (request : Sent)
  | read (packet : Raw)
  | closed
  deriving DecidableEq, Repr

/-- What a `Control` object holds, and what it did. -/
structure Connection where
  sources : UInt32
  clock : ℕ := 0
  closed : Bool := false
  requestId : ℕ := 0
  lease : Option UInt64 := none
  lastHeartbeat : ℚ := 0
  lastWrite : ℚ := 0
  generation : UInt64 := 0
  lastSequence : UInt64 := 0
  queue : List Delivery := []
  queueBytes : ℕ := 0
  epoch : List UInt8 := []
  leaseHeld : Bool := false
  history : List Occurrence := []
  deriving DecidableEq, Repr

def ackTimeout : ℚ := 2
def heartbeatInterval : ℚ := 1
def writePace : ℚ := 1 / 100

abbrev Talk := Prog Connection Trouble

/-! ### The private methods -/

namespace Connection

/-- The number of the next question. -/
def question : Talk ℕ :=
  Prog.update fun c => (c.clock, { c with clock := c.clock + 1 })

def get : Talk Connection :=
  Prog.update fun c => (c, c)

def change (step : Connection → Connection) : Talk Unit :=
  Prog.update fun c => ((), step c)

def noted (occurrence : Occurrence) (c : Connection) : Connection :=
  { c with history := c.history ++ [occurrence] }

/-- What `close` leaves. -/
def shut (c : Connection) : Connection :=
  { c with
    closed := true
    lease := none
    queue := []
    queueBytes := 0
    history := c.history ++ [.closed] }

def close : Talk Unit :=
  change shut

variable {α : Type} (around : Surroundings)

/-- Closes the connection, and raises. -/
def fail (trouble : Trouble) : Talk α := do
  close
  throw trouble

def now : Talk ℚ := do
  return around.clock (← question)

def check : Talk Unit := do
  if (← get).closed then throw .closed
  else if around.stop (← question) then fail .cancelled
  else return ()

/-- Goes on until a round has a result. -/
def loop (round : Talk (Option α)) : ℕ → Talk α
  | 0 => throw .running
  | rounds + 1 => do
      match ← round with
      | some result => return result
      | none => loop round rounds

/-- The packet a request is sent as; without a token it names the last generation. -/
def packed (kind : Request) (code : UInt32) (data : List UInt8) (token : Option UInt64)
    (c : Connection) : Sent :=
  ⟨kind, c.requestId, code, token.getD c.generation, data⟩

/-- `_send_request`. -/
def sendRequest (kind : Request) (code : UInt32) (data : List UInt8) (token : Option UInt64) :
    Talk ℕ := do
  check around
  if controlPayload < data.length ∨ (← get).requestId = 0xffffffff then fail .limits
  else
    change fun c => { c with requestId := c.requestId + 1 }
    let request := (← get).packed kind code data token
    match around.outgoing (← question) with
    | .failed => fail .sending
    | .incomplete =>
        change (noted (.sent request))
        fail .incomplete
    | .taken =>
        change (noted (.sent request))
        return request.number

/-- `_receive`: one packet, if it comes in time. -/
def receive : Talk (Option Raw) := do
  check around
  match around.incoming (← question) with
  | .quiet => return none
  | .failed => fail .receiving
  | .packet bytes truncated =>
      if bytes = [] then fail .disconnected
      else if bytes.length < controlHeader ∨ controlHeader + controlPayload < bytes.length ∨ truncated then
        fail (.protocol .packetSize)
      else if (unpack bytes).magic ≠ magic then fail .framing
      else
        change (noted (.read (unpack bytes)))
        return some (unpack bytes)

/-- `_event`, of a lease. -/
def leaseEvent (packet : Raw) : Talk Unit := do
  let c ← get
  if packet.payload ≠ [] ∨ (packet.code ≠ controlOk ∧ packet.code ≠ controlBusy)
      ∨ packet.sequence < c.generation then fail (.protocol .leaseEvent)
  else if c.lease ≠ none ∧ (c.lease ≠ some packet.sequence ∨ packet.code ≠ controlBusy) then
    fail (.protocol .leaseChanged)
  else
    change fun c => { c with generation := packet.sequence, leaseHeld := packet.code = controlBusy }

/-- `_event`, of an observation. -/
def observationEvent (packet : Raw) : Talk Unit := do
  let c ← get
  if (packet.code ≠ 1 ∧ packet.code ≠ 2 ∧ packet.code ≠ 4) ∨ packet.code &&& c.sources = 0
      ∨ packet.payload = [] ∨ packet.payload.length % 4 ≠ 0 ∨ packet.sequence ≤ c.lastSequence
      ∨ c.epoch = [] then fail (.protocol .observation)
  else
    change fun c => { c with lastSequence := packet.sequence }
    let size := controlHeader + packet.payload.length
    if controlQueuePackets ≤ c.queue.length ∨ controlQueueBytes < c.queueBytes + size then fail .overflow
    else
      change fun c => { c with
        queue := c.queue ++ [⟨packet.code, packet.sequence, .osc packet.payload⟩]
        queueBytes := c.queueBytes + size }

/-- `_event`. -/
def event (packet : Raw) : Talk Unit :=
  if packet.request ≠ 0 then fail (.protocol .unexpectedReply)
  else if packet.kind = leaseKind then leaseEvent packet
  else if packet.kind = windowKind then
    if packet.payload ≠ [] ∨ (packet.code ≠ controlOk ∧ packet.code ≠ controlBusy) then
      fail (.protocol .windowEvent)
    else return ()
  else if packet.kind = observationKind then observationEvent packet
  else fail (.protocol .unexpectedEvent)

/-- Reads a packet if one comes, and takes it as an event. -/
def receiveEvent : Talk Unit := do
  match ← receive around with
  | none => return ()
  | some packet => event packet

/-- Whether the reply to a request is well formed. -/
def acknowledges (kind : Request) (packet : Raw) : Bool :=
  kind = .hello ∨ packet.payload = [] ∧ (packet.code = controlOk ∨ packet.code = controlBusy
    ∨ packet.code = controlInvalid ∨ packet.code = controlNotOwner)

/-- One round of `_acknowledgement`. -/
def awaitReply (kind : Request) (number : ℕ) (deadline : ℚ) :
    Talk (Option (UInt32 × UInt64 × List UInt8)) := do
  if deadline - (← now around) ≤ 0 then fail .timedOut
  else
    match ← receive around with
    | none => return none
    | some packet =>
        if packet.isReply then
          if packet.kind ≠ kind.number ||| replyBit ∨ packet.request.toNat ≠ number then
            fail (.protocol .unexpectedAcknowledgement)
          else if !acknowledges kind packet then fail (.protocol .acknowledgement)
          else return some (packet.code, packet.sequence, packet.payload)
        else do
          event packet
          return none

/-- `_acknowledgement`: the code, sequence and payload of the reply to this request. -/
def acknowledgement (kind : Request) (number : ℕ) : Talk (UInt32 × UInt64 × List UInt8) := do
  let deadline := (← now around) + ackTimeout
  loop (awaitReply around kind number deadline) around.patience

/-- `_request`. -/
def request (kind : Request) (code : UInt32) (data : List UInt8) (token : Option UInt64) :
    Talk (UInt32 × UInt64 × List UInt8) := do
  let number ← sendRequest around kind code data token
  acknowledgement around kind number

def discard : Talk Unit :=
  change fun c => { c with queue := [], queueBytes := 0 }

/-! ### The public methods -/

/-- KEEPALIVE, once the lease has been idle long enough. -/
def keepalive (token : UInt64) : Talk Unit := do
  if (← now around) - (← get).lastHeartbeat < heartbeatInterval then return ()
  else
    let (code, generation, _) ← request around .keepalive 0 [] (some token)
    if code ≠ 0 ∨ (← get).lease ≠ some generation then fail (.protocol .leaseLost)
    else
      let time ← now around
      change fun c => { c with lastHeartbeat := time }

def heartbeat : Talk Unit := do
  check around
  match (← get).lease with
  | none => return ()
  | some token => keepalive around token

/-- One round of `wait`. -/
def pause (deadline : ℚ) : Talk (Option Unit) := do
  heartbeat around
  if deadline - (← now around) ≤ 0 then return some ()
  else
    receiveEvent around
    return none

def wait (seconds : ℚ) : Talk Unit := do
  let deadline := (← now around) + seconds
  loop (pause around deadline) around.patience

/-- Asks again a little later, or gives up. -/
def retry (trouble : Trouble) (deadline : ℚ) : Talk (Option Unit) := do
  if deadline ≤ (← now around) then throw trouble
  else
    wait around (min (1 / 10) (max 0 (deadline - (← now around))))
    return none

/-- One round of `begin`. -/
def acquire (deadline : ℚ) : Talk (Option Unit) := do
  let (code, generation, _) ← request around .begin 0 [] none
  discard
  if code = controlOk then
    change fun c => { c with lease := some generation, generation := generation }
    let time ← now around
    change fun c => { c with lastHeartbeat := time }
    return some ()
  else if code = controlNotOwner then throw .cannotOwn
  else if code ≠ controlBusy then throw .otherOwner
  else retry around .otherOwner deadline

def begin (timeout : ℚ) : Talk Unit := do
  if (← get).lease ≠ none then throw .alreadyOwner
  else
    let deadline := (← now around) + timeout
    loop (acquire around deadline) around.patience

def finish : Talk Unit := do
  check around
  match (← get).lease with
  | none => throw .notOwner
  | some token =>
      change fun c => { c with lease := none }
      let (code, generation, _) ← request around .end 0 [] (some token)
      if code ≠ 0 ∨ generation ≤ token then fail (.protocol .unfinished)
      else change fun c => { c with generation := generation }

/-- One round of `next_delivery`. -/
def takeDelivery (deadline : ℚ) : Talk (Option (Option Delivery)) := do
  heartbeat around
  match (← get).queue with
  | delivery :: rest =>
      change fun c => { c with
        queue := rest
        queueBytes := c.queueBytes - (controlHeader + delivery.payload.length) }
      return some (some delivery)
  | [] =>
      if deadline - (← now around) ≤ 0 then return some none
      else
        receiveEvent around
        return none

def nextDelivery (timeout : ℚ) : Talk (Option Delivery) := do
  let deadline := (← now around) + timeout
  loop (takeDelivery around deadline) around.patience

/-- The messages of a delivery of the device; others tell nothing. -/
def decoded (delivery : Delivery) : Option (List Message) :=
  if delivery.origin ≠ 1 then some []
  else
    match delivery.payload with
    | .osc data => around.decode data
    | .none => none
    | .hello _ => none

def messages (timeout : ℚ) : Talk (List Message) := do
  match ← nextDelivery around timeout with
  | none => return []
  | some delivery =>
      match decoded around delivery with
      | some reports => return reports
      | none => fail (.protocol .delivery)

/-- One round of `request_dump`. -/
def refresh (deadline : ℚ) : Talk (Option Unit) := do
  heartbeat around
  let (code, _, _) ← request around .refresh 0 [] (← get).lease
  discard
  if code = controlOk then return some ()
  else if code ≠ controlBusy then throw .noWindow
  else retry around .noWindow deadline

def requestDump (timeout : ℚ) : Talk Unit := do
  let deadline := (← now around) + timeout
  loop (refresh around deadline) around.patience

/-- A failure of the connection in a burst names how far the burst came. -/
def named (written unwritten : List Path) (trouble : Trouble) : Trouble :=
  match trouble with
  | .running => .running
  | .encoding => .encoding
  | other => .writeFailed other written unwritten

/-- Waits until the last WRITE is long enough ago. -/
def pace : Talk Unit := do
  let gap := writePace - ((← now around) - (← get).lastWrite)
  if 0 < gap then wait around gap else return ()

/-- Submits one WRITE; a command that cannot be encoded is not sent. -/
def submit (data : Option (List UInt8)) : Talk ℕ := do
  pace around
  heartbeat around
  match data with
  | none => throw .encoding
  | some data => sendRequest around .write 0 data (← get).lease

/-- The reply to a WRITE. -/
def writeReply (number : ℕ) : Talk UInt32 := do
  let (code, generation, _) ← acknowledgement around .write number
  if code = controlOk ∧ (← get).lease ≠ some generation then fail (.protocol .leaseChangedInWrite)
  else return code

/-- The rest of a burst: paths, each with its encoded command. -/
def sendFrom (written : List Path) : List (Path × Option (List UInt8)) → Talk Unit
  | [] => return ()
  | (path, data) :: rest => do
      let number ← tryCatch (submit around data) fun trouble =>
        throw (named written (path :: rest.map (·.1)) trouble)
      let code ← tryCatch (writeReply around number) fun trouble =>
        throw (named (written ++ [path]) (rest.map (·.1)) trouble)
      if code ≠ 0 then throw (.writeFailed (.refused code) written (path :: rest.map (·.1)))
      else
        let time ← now around
        change fun c => { c with lastWrite := time }
        sendFrom (written ++ [path]) rest

def send (burst : List (Path × Option (List UInt8))) : Talk Unit := do
  if (← get).lease = none then throw (.writeFailed .notOwner [] (burst.map (·.1)))
  else sendFrom around [] burst

/-- What the reply to HELLO must say. -/
def handshake (pid : UInt32) (code : UInt32) (generation : UInt64) (payload : List UInt8) : Talk Unit := do
  let name := (payload.drop helloReply).dropLast
  if code ≠ controlOk ∨ payload.length ≤ helloReply ∨ payload.getLast? ≠ some 0 ∨ name.contains 0 then
    fail (.protocol .handshake)
  else if get32 ((payload.drop 16).take 4) ≠ pid
      ∨ get32 ((payload.drop 20).take 4) ≠ protocolVersion then fail (.protocol .incompatible)
  else
    change fun c => { c with epoch := payload.take 16 }
    if !(ByteArray.mk name.toArray).validateUTF8 then fail (.protocol .handshake)
    else change fun c => { c with generation := generation }

/-- `__init__` and `_connect`: the checks of the endpoint, and HELLO; a failure closes. -/
def connect (reader : Bool) : Talk Unit := do
  match around.peer with
  | none => fail .peer
  | some pid =>
      let role := if reader then controlReader else controlDesk
      let (code, generation, payload) ←
        tryCatch (request around .hello role (put32 (← get).sources) none) fun trouble => do
          if trouble = .running then throw trouble else fail trouble
      handshake pid code generation payload

/-! ### A run -/

/-- A call of the program that holds the connection. -/
inductive Use
  | begin (timeout : ℚ)
  | heartbeat
  | finish
  | wait (seconds : ℚ)
  | nextDelivery (timeout : ℚ)
  | messages (timeout : ℚ)
  | requestDump (timeout : ℚ)
  | send (burst : List (Path × Option (List UInt8)))
  | close
  deriving DecidableEq, Repr

def call : Use → Talk Unit
  | .begin timeout => begin around timeout
  | .heartbeat => heartbeat around
  | .finish => finish around
  | .wait seconds => wait around seconds
  | .nextDelivery timeout => do
      let _ ← nextDelivery around timeout
  | .messages timeout => do
      let _ ← messages around timeout
  | .requestDump timeout => requestDump around timeout
  | .send burst => send around burst
  | .close => close

/-- One call after the other, whatever they raise, until one is cut off. -/
def calls : List Use → Talk Unit
  | [] => return ()
  | use :: rest => do
      tryCatch (call around use) fun trouble => if trouble = .running then throw .running else return ()
      calls rest

/-- A program connects, and uses the connection if it gets it. -/
def program (reader : Bool) (uses : List Use) : Talk Unit := do
  connect around reader
  calls around uses

end Connection

end OscmixDesk.Backend
