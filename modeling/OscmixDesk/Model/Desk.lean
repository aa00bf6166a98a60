/-
**One operation, from its lock to its release** (`desk.py`).

A `Desk` is entered, takes the lock of its device and a connection, acquires the lease with the first
piece of work, and gives everything back when it is left. What its methods do is kept in order (`Deed`):
the lock, BEGIN and END, the writes of its work and the writes it hands to the journal. What the machine
answers is not its own: `Premises` answer for the lock and the connection by the number of the question,
as the `World` does for the work. The record beside the journal is left out.
-/

import OscmixDesk.Model.Verify

namespace OscmixDesk

open Effects

/-! ### What an operation meets and raises -/

/-- What END comes to; only the first ends without an error. -/
inductive Ending
  | acknowledged
  | unacknowledged
  | unsent
  deriving DecidableEq, Repr

/-- The answers of the machine around an operation. -/
structure Premises where
  /-- `_target`: the serial of the interface. -/
  target : ℕ → Except Raised String
  /-- Whether the device lock is taken. -/
  locks : ℕ → Bool
  connects : ℕ → Option Cause
  begins : ℕ → Option Cause
  ends : ℕ → Ending
  closes : ℕ → Option Cause
  /-- The desk read again inside the lock. -/
  reread : Option (ℕ → Config → Except Raised Config)

/-- What a method raises. -/
inductive Mishap
  | raised (problem : Raised)
  | unusable
  | cancelled
  | reader
  /-- `DeviceLockUnavailable`. -/
  | lockUnavailable
  | entered
  | closed
  /-- A desk read again for another device. -/
  | retargeted
  deriving DecidableEq, Repr

/-- Whether it is an `OSError`. -/
def Mishap.isOs : Mishap → Bool
  | .raised (.os _) => true
  | .raised (.writeFailed _ _ _) => true
  | .raised (.fault _) => false
  | .unusable => true
  | .cancelled => true
  | .reader => true
  | .lockUnavailable => false
  | .entered => false
  | .closed => false
  | .retargeted => false

/-- Whether it is a `WriteFailed`. -/
def Mishap.isWriteFailed : Mishap → Bool
  | .raised (.writeFailed _ _ _) => true
  | _ => false

/-- A method of an operation. -/
inductive Method
  | enter
  | leave (raised : Bool)
  | opens
  | apply (intent : ApplyIntent)
  | verify
  | repair
  | wait
  | finish
  | disconnect
  | close (finish : Bool)
  deriving DecidableEq, Repr

/-- What an operation did, or what became of a call of it. -/
inductive Deed
  | locked
  | connected
  | opened
  | begun
  /-- Done on the connection. -/
  | on (event : Event)
  | ended
  | left
  | disconnected
  /-- Handed to the journal. -/
  | handed (written : List Message)
  | unlocked
  | raised (method : Method) (mishap : Mishap)
  deriving DecidableEq, Repr

/-! ### The operation -/

structure Desk where
  config : Config
  /-- Whether `_backend` is there. -/
  backend : Bool := false
  reader : Bool := false
  resolved : Bool := false
  /-- Whether `_expected_pid` is given. -/
  expected : Bool := false
  opened : Bool := false
  entered : Bool := false
  closed : Bool := false
  lease : Bool := false
  finished : Bool := false
  failed : Bool := false
  aborted : Bool := false
  lock : Bool := false
  written : Keyed Message.path := Keyed.empty
  session : Session := { lease := false }
  deeds : List Deed := []

abbrev Operate := Prog Desk Mishap

namespace Desk

/-! ### Reading the device first (`connectcheck.py`) -/

/-- The registers an operation notes besides. -/
def noted : List Path :=
  [.global "hardware" (some "ccmix"), .global "hardware" (some "ccmode")]

/-- The input-matrix registers the input routes of a desk set. -/
def declaredCells (config : Config) : Except Fault (List Path) := do
  let named := (config.routes.filter fun route => route.kind = .input && !route.base).flatMap fun route =>
    (mixMessages route).map (·.path)
  return ((← desired config).filter fun entry =>
    named.contains entry.path && entry.compared && entry.tags = "fi").map (·.path)

/-- The window of the connect check: what it has read of the dependencies, if that is all of them. -/
def readCells (world : World) (config : Config) (cells : List Path) : Act (Option Reports) := do
  let dependencies := dependencyPaths config
  let observed := Observation.opened [] none dependencies (cells ++ noted)
  requestDump world
  let deliveries := world.deliveries (← tick)
  let (closed, seen) ← watch world
    (fun seen => seen.dependenciesComplete && cells.all fun path => (seen.latest path).isSome)
    (some (.stopped (.during .autoset))) observed [] deliveries
  record (.window seen)
  if dependencies.isEmpty || !closed.dependenciesComplete then return none
  if ← askStop world then return none
  return some fun path => if dependencies.contains path then closed.latest path else none

/-- `check_at_connect`: it never refuses. -/
def checkAtConnect (world : World) (config : Config) : Act (Option Reports) := do
  let cells ← planned (declaredCells config)
  if cells.isEmpty then return none
  if ← askStop world then return none
  tryCatch (readCells world config cells) fun problem =>
    match problem with
    | .os _ => return none
    | .writeFailed _ _ _ => return none
    | .fault fault => throw (.fault fault)

/-! ### Steps -/

def get : Operate Desk :=
  Prog.update fun desk => (desk, desk)

def change (step : Desk → Desk) : Operate Unit :=
  Prog.update fun desk => ((), step desk)

/-- Adds a deed. -/
def did (deed : Deed) : Operate Unit :=
  change fun desk => { desk with deeds := desk.deeds ++ [deed] }

/-- The number of the next question. -/
def question : Operate ℕ :=
  Prog.update fun desk => (desk.session.clock,
    { desk with session := { desk.session with clock := desk.session.clock + 1 } })

/-- `_wrote`: one acknowledged write. -/
def wrote (written : Keyed Message.path) : Event → Keyed Message.path
  | .write message .done => written.put message
  | .write _ .lost => written
  | .write _ .refused => written
  | .window _ => written

/-- Work on the connection, which calls back for each acknowledged write. -/
def onConnection {α : Type} (act : Act α) : Operate α := fun desk =>
  let done := act { desk.session with events := [] }
  (done.1.mapError .raised, { desk with
    written := done.2.events.foldl wrote desk.written
    session := { done.2 with events := [] }
    deeds := desk.deeds ++ done.2.events.map .on })

/-- Runs a last step, whatever became of the first one. -/
def ensuring {α : Type} (first : Operate α) (last : Operate Unit) : Operate α := do
  let value ← tryCatch first fun mishap => do
    last
    throw mishap
  last
  return value

/-- An `OSError` of the cleanup is only logged. -/
def logging (cleanup : Operate Unit) : Operate Unit :=
  tryCatch cleanup fun mishap => if mishap.isOs then return () else throw mishap

/-- No further work. -/
def abort : Operate Unit :=
  change fun desk => { desk with failed := true, aborted := true }

variable (world : World) (premises : Premises)

/-- `_check_stop`. -/
def checkStop : Operate Unit := do
  if world.stop (← question) then
    abort
    throw .cancelled

/-- `_control`: the connection, where the operation is usable. -/
def control : Operate Unit := do
  let desk ← get
  if !desk.opened || desk.closed || desk.finished || desk.failed || !desk.backend then throw .unusable
  else checkStop world

/-- `_begin`: the lease, with the first piece of work. -/
def begin : Operate Unit := do
  control world
  if (← get).reader then throw .reader
  else if (← get).lease then return ()
  else
    match premises.begins (← question) with
    | some cause => do
        abort
        throw (.raised (.os cause))
    | none => do
        change fun desk => { desk with lease := true, session := { desk.session with lease := true } }
        did .begun

/-- `_record`: the acknowledged writes so far are handed to the journal. -/
def record : Operate Unit := do
  let written := (← get).written.items
  change fun desk => { desk with written := Keyed.empty }
  did (.handed written)

/-- `_apply`. -/
def start (intent : ApplyIntent) : Operate Unit := do
  let config := (← get).config
  let observed ← if intent = .initial then onConnection (checkAtConnect world config) else pure none
  onConnection (applyRouting world config intent [] [] [] observed)

/-- The work of an apply: whether it is complete. -/
def submit (intent : ApplyIntent) : Operate Bool := do
  if intent = .reconcile then
    let config := (← get).config
    onConnection (reconcileNow world config)
  else
    start world intent
    return true

def apply (intent : ApplyIntent) : Operate Bool := do
  begin world premises
  let complete ← ensuring
    (tryCatch (submit world intent) fun mishap => do
      if mishap.isOs then abort
      throw mishap)
    record
  if world.stop (← question) then
    abort
    return false
  return complete

def verify : Operate VerifyResult :=
  tryCatch (do
      let config := (← get).config
      let registers ← onConnection (planned (expectedRegisters config))
      begin world premises
      onConnection (verifyRouting world registers (deviceForName config.deviceName)
        (dependencyPaths config)))
    fun mishap => do
      if mishap.isOs && !(← get).reader then change fun desk => { desk with failed := true }
      throw mishap

def repair : Operate Bool :=
  tryCatch (do
      let config := (← get).config
      begin world premises
      onConnection (verifyAndRepair world config))
    fun mishap => do
      if mishap.isOs && !(← get).reader then
        change fun desk => { desk with
          failed := true
          aborted := desk.aborted || mishap.isWriteFailed }
      throw mishap

/-- `_wait`. -/
def wait : Operate Bool := do
  control world
  let settling := world.deliveries (← question)
  let stopped ← onConnection (waitUnlessStopped world settling)
  if stopped then abort
  return stopped

/-- `_finish`: acknowledges END once. -/
def finish : Operate Unit := do
  if (← get).lease then
    change fun desk => { desk with lease := false, finished := true }
    if (← get).backend then
      let ending := premises.ends (← question)
      change fun desk => { desk with session := { desk.session with lease := false } }
      match ending with
      | .acknowledged => did .ended
      | .unacknowledged => do
          did .ended
          throw (.raised (.os .connection))
      | .unsent => throw (.raised (.os .connection))

/-- `_disconnect`: closes once. -/
def disconnect : Operate Unit := do
  if (← get).backend then
    change fun desk => { desk with
      backend := false
      session := { desk.session with lease := false } }
    did .disconnected
    match premises.closes (← question) with
    | some cause => throw (.raised (.os cause))
    | none => return ()

/-- The lock is released, where one was taken. -/
def unlock : Operate Unit := do
  if (← get).lock then did .unlocked

/-- `_close`. -/
def close (finishing : Bool) : Operate Unit := do
  if (← get).closed then return ()
  else
    change fun desk => { desk with closed := true }
    did .left
    ensuring (do if finishing && !(← get).aborted then finish premises) <|
      ensuring (disconnect premises) <| ensuring record unlock

/-- The interface whose lock is taken; a session has resolved it already. -/
def pin : Operate Unit := do
  if (← get).resolved then return ()
  else
    match premises.target (← question) with
    | .error problem => throw (.raised problem)
    | .ok serial => change fun desk => { desk with config := { desk.config with serial := serial } }

/-- The desk is read again inside the lock; it is still one of the same device. -/
def readAgain : Operate Unit := do
  match premises.reread with
  | none => return ()
  | some reread => do
      let config := (← get).config
      match reread (← question) config with
      | .error problem => throw (.raised problem)
      | .ok fresh => do
          let _ ← onConnection (planned (desired fresh))
          if (fresh.deviceName, fresh.usbId, fresh.serial)
              ≠ (config.deviceName, config.usbId, config.serial) then throw .retargeted
          else change fun desk => { desk with config := fresh }

/-- `_lock_device`. -/
def lockDevice : Operate Unit := do
  pin premises
  if !premises.locks (← question) then throw .lockUnavailable
  else
    change fun desk => { desk with lock := true }
    did .locked
    checkStop world
    readAgain premises

/-- A session's operation on a desk that declares nothing reads only. -/
def readOnly : Operate Unit := do
  if (← get).expected then
    let entries ← onConnection (planned (desired (← get).config))
    if entries.isEmpty then change fun desk => { desk with reader := true }

/-- A connection, where none is given. -/
def connect : Operate Unit := do
  if (← get).backend then return ()
  else
    readOnly
    match premises.connects (← question) with
    | some cause => throw (.raised (.os cause))
    | none => do
        change fun desk => { desk with backend := true }
        did .connected

/-- The steps of `_open`. -/
def prepare : Operate Unit := do
  checkStop world
  let _ ← onConnection (planned (desired (← get).config))
  if !(← get).reader then lockDevice world premises
  connect premises
  change fun desk => { desk with opened := true }
  did .opened

/-- `_open`. -/
def opens : Operate Unit := do
  if (← get).closed then throw .closed
  else if (← get).opened then return ()
  else
    tryCatch (prepare world premises) fun mishap => do
      logging (close premises false)
      throw mishap

/-- `__enter__`. -/
def enter : Operate Unit := do
  if (← get).entered || (← get).closed then throw .entered
  else
    opens world premises
    change fun desk => { desk with entered := true }

/-- `__exit__`, of a body that raised or did not. -/
def leave (raised : Bool) : Operate Unit :=
  if raised then logging (close premises false) else close premises true

/-! ### A run -/

/-- Runs a program for what it does. -/
def doing {α : Type} (program : Operate α) : Operate Unit := do
  let _ ← program

def perform : Method → Operate Unit
  | .enter => enter world premises
  | .leave raised => leave premises raised
  | .opens => opens world premises
  | .apply intent => doing (apply world premises intent)
  | .verify => doing (verify world premises)
  | .repair => doing (repair world premises)
  | .wait => doing (wait world)
  | .finish => finish premises
  | .disconnect => disconnect premises
  | .close finishing => close premises finishing

/-- One call; what it raises is noted. -/
def call (method : Method) : Operate Unit :=
  tryCatch (perform world premises method) fun mishap => did (.raised method mishap)

/-- One call after the other. -/
def calls : List Method → Operate Unit
  | [] => return ()
  | method :: rest => do
      call world premises method
      calls rest

/-- `_operation`: an operation as it is made; a connection may be given. -/
def operation (config : Config) (backend reader resolved expected : Bool) : Desk where
  config := config
  backend := backend
  reader := reader
  resolved := resolved || expected
  expected := expected

end Desk

end OscmixDesk
