/-
**The lock of the device** (`locking.py`).

Every writer of an interface holds one lock while it writes: a switch and a restore, the unit's start with its
verifier, and its reconcile. Where the lock lies depends on the machine before it depends on the writer
(`deviceLockPath`); it is taken, waited for, or refused (`deviceLock`), and held until the operation is over
(`operation`). Here an operation is what the other writers see of it: the writes that reached the device, the desk it
read inside the lock, and the marker it changed. What it decides to write is its plan's; any call of it may fail, and
the acknowledgement of a write may be lost, whether the write arrived or not.
-/

import OscmixDesk.Foundation.Calls
import OscmixDesk.Model.Entries

namespace OscmixDesk.Locking

/-! ### Where the lock lies -/

/-- A lock file: its directory and its name. -/
structure LockFile where
  directory : String
  name : String
  deriving DecidableEq, Repr

/-- What a writer finds in its environment. -/
structure Surroundings where
  /-- `OSCMIX_LOCK_DIR`. -/
  lockDir : Option String := none
  /-- `XDG_RUNTIME_DIR`. -/
  runtimeDir : Option String := none

/-- `SHARED_LOCK_DIR`. -/
def sharedLockDir : String := "/run/oscmix-desk"

/-- `SWITCH_LOCK`. -/
def switchLock : String := "active-profile.lock"

/-- `os.path.isabs`. -/
def isAbsolute (path : String) : Bool :=
  path.toList.head? = some '/'

/-- Where the lock for a device lies: in the shared directory wherever that exists, whoever asks; in the runtime
directory of the caller; or beside the configuration. -/
def deviceLockPath (isDir : String → Bool) (around : Surroundings) (configDir : Option String) (key : String) :
    Option LockFile :=
  let shared := around.lockDir.getD sharedLockDir
  let beside := configDir.map fun directory => ⟨directory, switchLock⟩
  if key = "" then beside
  else if isDir shared then some ⟨shared, key ++ ".lock"⟩
  else match around.runtimeDir with
  | some runtime => if isAbsolute runtime then some ⟨runtime ++ "/oscmix-desk", key ++ ".lock"⟩ else beside
  | none => beside

/-! ### Calls -/

/-- What an attempt on the lock comes to. -/
inductive Attempt
  | taken
  | contended
  | failed
  deriving DecidableEq, Repr

/-- What a write comes to; one that is lost may have arrived. -/
inductive Sending
  | acknowledged
  | refused
  | lost
  deriving DecidableEq, Repr

/-- What a change of the marker comes to; `raised` is one that is in effect, and says that it is not. -/
inductive Change
  | inEffect
  | failed
  | raised
  deriving DecidableEq, Repr

/-- The calls of an operation; `close` leaves a lock that was not taken. -/
inductive Request
  | directory (lock : LockFile)
  | openLock (lock : LockFile)
  | flock (lock : LockFile)
  | stopping
  | close
  | release (lock : LockFile)
  | connect
  | reread (config : String)
  | send (message : Message)
  | repairs
  | finish
  | mark (config : String) (name : Option String)

abbrev Answer : Request → Type
  | .flock _ => Attempt
  | .close => Unit
  | .release _ => Unit
  | .reread _ => Option (List Message)
  | .send _ => Sending
  -- which writes of the desk the verifier sends again
  | .repairs => Option (Message → Bool)
  | .mark _ _ => Change
  | _ => Bool

/-- A program of these calls. -/
abbrev Script := Calls Request Answer

open Calls

/-- One call. -/
def sys (request : Request) : Script (Answer request) :=
  ask request

/-! ### The lock -/

/-- Why a lock is not held. -/
inductive Refusal
  | noDirectory
  | cannotOpen
  | cannotLock
  | stoppedWaiting
  | heldElsewhere
  deriving DecidableEq, Repr

/-- Leaves a lock that was not taken. -/
def leave (refusal : Refusal) : Script (Except Refusal Unit) := do
  let _ ← sys .close
  return .error refusal

/-- One try, and what follows where another writer has the lock. -/
def attempt (lock : LockFile) (again : Script (Except Refusal Unit)) : Script (Except Refusal Unit) := do
  let attempt : Attempt ← sys (.flock lock)
  match attempt with
  | .taken => return .ok ()
  | .failed => leave .cannotLock
  | .contended => do
      let stopping : Bool ← sys .stopping
      if stopping then leave .stoppedWaiting else again

/-- Tries the lock until it is taken, fails, or the wait is over: the deadline leaves room for a number of further
tries. -/
def await (lock : LockFile) : ℕ → Script (Except Refusal Unit)
  | 0 => attempt lock (leave .heldElsewhere)
  | room + 1 => attempt lock (await lock room)

/-- Takes the lock of a device, or says why not. -/
def deviceLock (lock : LockFile) (room : ℕ) : Script (Except Refusal Unit) := do
  let directory : Bool ← sys (.directory lock)
  if directory then do
    let opened : Bool ← sys (.openLock lock)
    if opened then await lock room else return .error .cannotOpen
  else return .error .noDirectory

/-! ### Operations -/

/-- The volumes a peak-safe selection pulls down before the writes of its desk, and gives back behind them. -/
structure Quiet where
  down : List Message
  back : List Message

/-- What an operation is for: a selection of a desk, peak-safe or not, with the marker it records; a reconcile of the
desk the marker selects; or a start, which falls back to the desk it began with. -/
inductive Job
  | select (config : String) (name : Option String) (desk : List Message) (quiet : Option Quiet)
  | reconcile (config : String)
  | start (config : String) (running : List Message)

/-- What became of an operation. -/
inductive Outcome
  | refused
  | inPart (sent pending : List Message)
  | applied (persisted : Bool)
  deriving DecidableEq, Repr

/-- What became of a burst: it gave out behind some writes, the last of which may be lost. -/
inductive Burst
  | complete
  | gaveOut (sent pending : List Message)

/-- The writes one after another behind those that were sent, until one is refused or lost. -/
def sendFrom (sent : List Message) : List Message → Script Burst
  | [] => return .complete
  | message :: rest => do
      let answer : Sending ← sys (.send message)
      match answer with
      | .acknowledged => sendFrom (sent ++ [message]) rest
      | .refused => return .gaveOut sent (message :: rest)
      | .lost => return .gaveOut (sent ++ [message]) rest

def sendAll (messages : List Message) : Script Burst :=
  sendFrom [] messages

/-- The writes of a desk. A peak-safe selection gives the volumes back however they end, and names only its desk. -/
def sendQuietly (quiet : Option Quiet) (desk : List Message) : Script Burst :=
  match quiet with
  | none => sendAll desk
  | some volumes => do
      match ← sendAll volumes.down with
      | .gaveOut sent pending => return .gaveOut sent pending
      | .complete => do
          match ← sendAll desk with
          | .gaveOut sent pending => do
              let _ ← sendAll volumes.back
              return .gaveOut sent pending
          | .complete => sendAll volumes.back

def Job.quiet : Job → Option Quiet
  | select _ _ _ quiet => quiet
  | _ => none

/-- The desk an operation writes: its own, or what is read inside the lock. -/
def Job.desk : Job → Script (Option (List Message))
  | select _ _ desk _ => return some desk
  | reconcile config => sys (.reread config)
  | start config running => do
      let fresh : Option (List Message) ← sys (.reread config)
      return some (fresh.getD running)

/-- What follows the writes of a desk. -/
def Job.conclude (desk : List Message) : Job → Script Outcome
  | select config name _ _ => do
      let ended : Bool ← sys .finish
      if ended then do
        let change : Change ← sys (.mark config name)
        return .applied (change = .inEffect)
      else return .applied false
  | reconcile _ => do
      let _ ← sys .finish
      return .applied false
  | start _ _ => do
      -- the verifier of a start keeps the lock through its one repair
      let repairs : Option (Message → Bool) ← sys .repairs
      let _ ← sendAll (desk.filter (repairs.getD fun _ => false))
      let _ ← sys .finish
      return .applied false

/-- An operation inside its lock. -/
def Job.held (job : Job) : Script Outcome := do
  let stopping : Bool ← sys .stopping
  if stopping then return .refused
  else do
    match ← job.desk with
    | none => return .refused
    | some desk => do
        let connected : Bool ← sys .connect
        if connected then do
          match ← sendQuietly job.quiet desk with
          | .complete => job.conclude desk
          | .gaveOut sent pending => return if sent = [] then .refused else .inPart sent pending
        else return .refused

/-- An operation: nothing is written where the lock is not held. -/
def operation (lock : LockFile) (room : ℕ) (job : Job) : Script Outcome := do
  match ← deviceLock lock room with
  | .error _ => return .refused
  | .ok () => do
      let outcome ← job.held
      let _ ← sys (.release lock)
      return outcome

/-! ### The machine -/

/-- What the others see of an operation. -/
inductive Event
  | wrote (message : Message)
  | reread (config : String) (name : Option String) (desk : Option (List Message))
  | marked (config : String) (name : Option String)
  deriving DecidableEq, Repr

/-- Who holds which lock, and all that was done, in order. -/
structure Floor (ι : Type) where
  holder : LockFile → Option ι
  log : List (ι × Event)

/-- One more event. -/
def Floor.add {ι : Type} (now : Floor ι) (i : ι) (event : Event) : Floor ι :=
  { now with log := now.log ++ [(i, event)] }

/-- The marker of a configuration behind an event. -/
def marker (held : String → Option String) (event : Event) : String → Option String :=
  match event with
  | .marked config name => Function.update held config name
  | _ => held

/-- The markers behind a log. -/
def markers {ι : Type} (first : String → Option String) (log : List (ι × Event)) : String → Option String :=
  (log.map Prod.snd).foldl marker first

/-- What the calls do. The kernel grants a lock to one process at a time. -/
inductive Law {ι : Type} [DecidableEq ι] (first : String → Option String) (i : ι) :
    (request : Request) → Floor ι → Answer request → Floor ι → Prop
  | directory {lock : LockFile} {now : Floor ι} (there : Bool) : Law first i (.directory lock) now there now
  | openLock {lock : LockFile} {now : Floor ι} (opened : Bool) : Law first i (.openLock lock) now opened now
  | taken {lock : LockFile} {now : Floor ι} (free : now.holder lock = none) :
      Law first i (.flock lock) now .taken { now with holder := Function.update now.holder lock (some i) }
  | contended {lock : LockFile} {now : Floor ι} (held : (now.holder lock).isSome) :
      Law first i (.flock lock) now .contended now
  | noLock {lock : LockFile} {now : Floor ι} : Law first i (.flock lock) now .failed now
  | stopping {now : Floor ι} (stopping : Bool) : Law first i .stopping now stopping now
  | close {now : Floor ι} : Law first i .close now () now
  | release {lock : LockFile} {now : Floor ι} :
      Law first i (.release lock) now () { now with holder := Function.update now.holder lock none }
  | connect {now : Floor ι} (connected : Bool) : Law first i .connect now connected now
  | reread {config : String} {now : Floor ι} (desk : Option (List Message)) :
      Law first i (.reread config) now desk (now.add i (.reread config (markers first now.log config) desk))
  | sent {message : Message} {now : Floor ι} :
      Law first i (.send message) now .acknowledged (now.add i (.wrote message))
  | notSent {message : Message} {now : Floor ι} : Law first i (.send message) now .refused now
  | lost {message : Message} {now : Floor ι} : Law first i (.send message) now .lost now
  | lostBehind {message : Message} {now : Floor ι} :
      Law first i (.send message) now .lost (now.add i (.wrote message))
  | repairs {now : Floor ι} (repairs : Option (Message → Bool)) : Law first i .repairs now repairs now
  | finish {now : Floor ι} (ended : Bool) : Law first i .finish now ended now
  | marked {config : String} {name : Option String} {now : Floor ι} :
      Law first i (.mark config name) now .inEffect (now.add i (.marked config name))
  | unmarked {config : String} {name : Option String} {now : Floor ι} :
      Law first i (.mark config name) now .failed now
  | raised {config : String} {name : Option String} {now : Floor ι} :
      Law first i (.mark config name) now .raised (now.add i (.marked config name))

/-- A writer of the device, with what it finds around it. -/
structure Writer where
  around : Surroundings := {}
  configDir : Option String := none
  /-- How often the wait for the lock leaves room for another try. -/
  room : ℕ := 0
  job : Job

/-- The script of a writer. Without any place for a lock there is nobody to contend with. -/
def Writer.script (isDir : String → Bool) (key : String) (writer : Writer) : Script Outcome :=
  match deviceLockPath isDir writer.around writer.configDir key with
  | none => writer.job.held
  | some lock => operation lock writer.room writer.job

/-- Writers of one device, side by side. The kernel takes the locks of a process that dies, and all of them where the
machine stops. -/
def writers {ι : Type} [DecidableEq ι] (isDir : String → Bool) (key : String) (first : String → Option String)
    (writer : ι → Writer) : Concurrent ι Request Answer Outcome (Floor ι) where
  program i := (writer i).script isDir key
  law := Law first
  dies i now after := after.log = now.log
    ∧ ∀ lock, after.holder lock = if now.holder lock = some i then none else now.holder lock
  stops now after := after.log = now.log ∧ ∀ lock, after.holder lock = none

end OscmixDesk.Locking
