/-
**Terminating an orphaned backend** (`process.py`).

What identifies a backend is put together from many reads of `/proc`, and processes start and exit between any
two of them. A process is told from the next one that has its number by `born`; a pidfd is open on the process,
not on the number. The names in the last field of a process's `stat` line are behind its command's, which may
hold a parenthesis of its own.
-/

import OscmixDesk.Foundation.Observed
import OscmixDesk.Model.Discovery
import OscmixDesk.Model.Endpoint

namespace OscmixDesk.Process

open Effects Observed Patterns Text

/-! ### What is read -/

/-- A process, with what `/proc` shows of it. -/
structure Proc where
  number : ℕ
  born : ℕ
  uid : ℕ
  comm : List Char
  cmdline : List Char
  /-- `none` where the link cannot be read. -/
  exe : Option (List Char)
  parent : ℕ
  state : Char
  /-- The fields behind the parent's number. -/
  counters : List Char
  environ : Option (List Char)
  status : List Char
  children : List Char
  /-- Its file descriptors, and what each links to. -/
  handles : Option (List (ℕ × Option Handle))
  letter : state.isAlpha = true
  closed : ')' ∉ counters

/-- What `path.lstat` finds. -/
inductive Endpoint
  | missing
  | socket
  | other
  | refused
  deriving DecidableEq, Repr

/-- A file with what `_root_file` looks at: its kind, its owner and mode, and those of its directories. -/
structure RootFile where
  regular : Bool
  uid : ℕ
  mode : ℕ
  parents : List (ℕ × ℕ)
  text : List Char

/-- What the registered service's manager shows. -/
structure Host where
  supervisorPid : Option RootFile
  runitExists : Bool
  runitPid : Option RootFile
  /-- `RUNIT_SERVICE.resolve()`. -/
  runitTarget : List Char

structure Snapshot where
  processes : List Proc
  /-- `/proc/net/unix`, `none` where it cannot be read or decoded. -/
  unix : Option (List Char)
  /-- `/proc/asound/seq/clients`. -/
  clients : Option (List Char)
  endpoint : Endpoint
  host : Host
  clock : ℚ
  /-- Whether the system gives pidfds. -/
  pidfds : Bool

/-- What a read raises; `missing` is the `OSError` of a file that is not there. -/
inductive Fault
  | missing
  | os
  | value
  | attribute
  deriving DecidableEq, Repr

/-- A program of reads. -/
abbrev Look := Prog (Moment Snapshot) Fault

/-- `str(pid)`, the name of a process's directory. -/
def pidText (number : ℕ) : List Char :=
  Nat.toDigits 10 number

/-- The process of a directory. -/
def Snapshot.entry (w : Snapshot) (name : List Char) : Option Proc :=
  w.processes.find? fun process => pidText process.number == name

/-- A file of a process's directory. -/
def ofEntry {α : Type} (name : List Char) (file : Proc → Except Fault α) : Look α :=
  look fun w =>
    match w.entry name with
    | none => throw .missing
    | some process => file process

/-- The directories of `/proc` that are numbers. -/
def numbers : Look (List ℕ) :=
  look fun w => return w.processes.map Proc.number

/-- The last part of a path, as `pathlib` takes it. -/
def pathName (path : List Char) : List Char :=
  (((path.splitOn '/').filter fun part => part ≠ [] && part ≠ ['.']).getLast?).getD []

/-- `os.path.basename`. -/
def baseName (path : List Char) : List Char :=
  (path.reverse.takeWhile (· ≠ '/')).reverse

/-- `split(b"\0")`. -/
def splitNul (bytes : List Char) : List (List Char) :=
  bytes.splitOn (Char.ofNat 0)

def oscmix : List Char := ['o', 's', 'c', 'm', 'i', 'x']

def alsaseqio : List Char := ['a', 'l', 's', 'a', 's', 'e', 'q', 'i', 'o']

def oscmixSession : List Char := ['o', 's', 'c', 'm', 'i', 'x', '-', 's', 'e', 's', 's', 'i', 'o', 'n']

/-- `/proc/<pid>/stat`. -/
def Proc.stat (process : Proc) : List Char :=
  pidText process.number ++ [' ', '('] ++ process.comm ++ [')', ' ', process.state, ' '] ++ pidText process.parent
    ++ ' ' :: process.counters

/-- `text.rsplit(")", 1)[1].split()[1]`. -/
def fieldFour (text : List Char) : Option (List Char) :=
  if text.any (· == ')') then
    let behind := (text.reverse.takeWhile (· ≠ ')')).reverse
    (splitBlanks behind.length behind)[1]?
  else none

/-- `_ppid`. -/
def ppid (name : List Char) : Look (Option (List Char)) := do
  let stat ← attempt (ofEntry name fun process => return process.stat)
  return stat.bind fieldFour

/-! ### The socket's owner -/

def faultOf : Unreadable → Fault
  | .decode => .value
  | _ => .os

/-- The handles of one entry, link by link. -/
def readEntry (number : ℕ) : Look Entry := do
  let handles ← attempt (ofEntry (pidText number) fun process =>
    process.handles.elim (throw .os) fun handles => return handles.map Prod.fst)
  match handles with
  | none => return ⟨number, none⟩
  | some handles =>
      let targets ← handles.mapM fun handle => attempt (ofEntry (pidText number) fun process =>
        ((process.handles.bind (·.lookup handle)).join).elim (throw .os) pure)
      return ⟨number, some targets⟩

/-- `_owner_of_sockets`, over entries that are read one after the other. -/
def readOwner (inodes : List (List Char)) : Look (Option ℕ) := do
  if inodes = [] then return none
  else
    let numbers ← numbers
    let entries ← numbers.mapM readEntry
    lift ((ownerOfSockets inodes entries).mapError faultOf)

def readControlSocketOwner (path : List Char) : Look (Option ℕ) := do
  let inodes ← look fun w => (listeningInodes path w.unix).mapError faultOf
  readOwner inodes

/-! ### The backend -/

/-- `short_has_arg`. -/
def shortHasArg (opt : Char) : List Char → Option Bool
  | [] => none
  | c :: rest => if opt = c ∧ c ≠ ':' then some (rest.head? == some ':') else shortHasArg opt rest

/-- `do_shorts`. -/
def doShorts (shortopts : List Char) :
    List Char → List (List Char) → Option (List (Char × List Char) × List (List Char))
  | [], args => some ([], args)
  | opt :: optstring, args =>
      match shortHasArg opt shortopts with
      | none => none
      | some true =>
          if optstring = [] then
            match args with
            | [] => none
            | arg :: args => some ([(opt, arg)], args)
          else some ([(opt, optstring)], args)
      | some false => (doShorts shortopts optstring args).map fun found => ((opt, []) :: found.1, found.2)

/-- `getopt.getopt` without long options; every turn takes an argument. -/
def getoptFrom (shortopts : List Char) :
    ℕ → List (List Char) → Option (List (Char × List Char) × List (List Char))
  | 0, args => some ([], args)
  | _ + 1, [] => some ([], [])
  | turns + 1, arg :: args =>
      if arg.head? ≠ some '-' ∨ arg = ['-'] then some ([], arg :: args)
      else if arg = ['-', '-'] then some ([], args)
      else if arg.take 2 = ['-', '-'] then none
      else
        match doShorts shortopts arg.tail args with
        | none => none
        | some (opts, rest) => (getoptFrom shortopts turns rest).map fun found => (opts ++ found.1, found.2)

def getopt (args : List (List Char)) (shortopts : List Char) :
    Option (List (Char × List Char) × List (List Char)) :=
  getoptFrom shortopts args.length args

/-- Who holds the endpoint. -/
structure BackendOwner where
  pid : ℕ
  oscmix : Bool
  client : Option ℕ
  serial : Option (List Char)
  deriving DecidableEq, Repr

/-- The arguments of a command line, without what follows the last NUL. -/
def argsOf (cmdline : List Char) : List (List Char) :=
  if (splitNul cmdline).getLast? = some [] then (splitNul cmdline).dropLast else splitNul cmdline

/-- Whether the arguments run `oscmix` with this endpoint. -/
def runsEndpoint (path : List Char) (args : List (List Char)) : Bool :=
  match args with
  | [] => false
  | program :: args =>
      pathName program == oscmix &&
        match getopt args ['d', 'l', 'p', ':', 'c', ':'] with
        | none => false
        | some (options, rest) =>
            rest == [] && (options.filter (·.1 == 'c')).map Prod.snd == [path]

/-- The client that the arguments of an `alsaseqio` bridge. -/
def bridgedBy (args : List (List Char)) : Option ℕ :=
  match args with
  | program :: option :: port :: target :: _ =>
      let number := port.take (port.length - 2)
      if pathName program == alsaseqio && option == ['-', 'x'] && port.drop (port.length - 2) == [':', '1']
          && number != [] && number.all (fun c => '0' ≤ c && c ≤ '9') && pathName target == oscmix then
        some (Discovery.int number)
      else none
  | _ => none

/-- A process, if it is a child of the other. -/
def childOf (pid : List Char) (number : ℕ) : Look (Option (List Char)) := do
  let parent ← ppid (pidText number)
  return if parent = some pid then some (pidText number) else none

/-- `_children_of`. -/
def childrenOf (pid : List Char) : Look (List (List Char)) := do
  let numbers ← numbers
  let children ← numbers.mapM (childOf pid)
  return children.filterMap id

/-- `_parent_of`. -/
def parentOf (name : List Char) : Look (List (List Char)) := do
  let parent ← ppid name
  return parent.toList

/-- The client that a candidate bridges. -/
def bridge (name : List Char) : Look (Option ℕ) := do
  let cmdline ← attempt (ofEntry name fun process => return process.cmdline)
  match cmdline with
  | none => return none
  | some cmdline =>
      let executable ← attempt (ofEntry name fun process => process.exe.elim (throw .os) pure)
      return if executable.any fun executable => pathName executable == alsaseqio then bridgedBy (splitNul cmdline)
        else none

/-- `_bridged_client`. -/
def bridgedClient (holder : List Char) : Look (Option ℕ) := do
  let children ← childrenOf holder
  let parents ← parentOf holder
  let clients ← (children ++ parents).mapM bridge
  return if (clients.filterMap id).length = 1 then (clients.filterMap id).head? else none

/-- `^Client\s+(\d+)\s*:\s*"(.*)"`. -/
def clientRe : List Piece :=
  Discovery.clientNumberRe ++ [Discovery.blanks 0] ++ literal ['"']
    ++ [{ item := .many (· != '\n') 0 false, group := true }] ++ literal ['"']

/-- `parse_seq_clients`. -/
def parseSeqClients (text : List Char) : List (ℕ × List Char) :=
  (findall clientRe text).filterMap fun groups =>
    match groups with
    | [number, name] => some (Discovery.int number, name)
    | _ => none

/-- The serial in the name of a client; the last line of a number counts. -/
def serialOf (client : ℕ) (text : List Char) : Option (List Char) :=
  ((parseSeqClients (newlines text)).reverse.lookup client).bind Discovery.serialIn

/-- `_client_serial`. -/
def clientSerial : Option ℕ → Look (Option (List Char))
  | none => return none
  | some client => do
      let text ← attempt (look fun w => w.clients.elim (throw .os) pure)
      return text.bind (serialOf client)

/-- The coordinated backend of the endpoint. -/
def controlHolder (path : List Char) : Look (Option BackendOwner) := do
  let owner ← readControlSocketOwner path
  match owner with
  | none => return none
  | some owner =>
      let cmdline ← ofEntry (pidText owner) fun process => return process.cmdline
      let executable ← ofEntry (pidText owner) fun process => process.exe.elim (throw .os) pure
      if pathName executable ≠ oscmix ∨ runsEndpoint path (argsOf cmdline) = false then
        return some ⟨owner, false, none, none⟩
      else
        let client ← bridgedClient (pidText owner)
        let serial ← clientSerial client
        return some ⟨owner, true, client, serial⟩

/-! ### The user and the session -/

/-- The number of a process of this user that is called `oscmix`. -/
def ownBackend (uid number : ℕ) : Look (Option ℕ) := do
  let owner ← attempt (ofEntry (pidText number) fun process => return process.uid)
  if owner ≠ some uid then return none
  else
    let comm ← attempt (ofEntry (pidText number) fun process => return process.comm)
    let cmdline ← attempt (ofEntry (pidText number) fun process => return process.cmdline)
    return if strip (comm.getD []) = oscmix
        ∨ baseName ((cmdline.getD []).takeWhile (· ≠ Char.ofNat 0)) = oscmix then some number
      else none

/-- `find_stale_backends`, in the order they are found. -/
def findStaleBackends (uid : ℕ) : Look (List ℕ) := do
  let numbers ← numbers
  let own ← numbers.mapM (ownBackend uid)
  return own.filterMap id

/-- Whether a command line is that of `oscmix-session`, as a program or as a script. -/
def runsSession (cmdline : List Char) : Bool :=
  ((splitNul cmdline).take 2).any fun arg => baseName arg == oscmixSession

/-- `_supervising_session`. -/
def supervisingSession (name : List Char) : Look (Option (List Char)) := do
  let parent ← ppid name
  match parent with
  | none => return none
  | some parent =>
      if parent = ['1'] then return none
      else
        let cmdline ← attempt (ofEntry parent fun process => return process.cmdline)
        return if cmdline.any runsSession then some parent else none

/-! ### The signal -/

/-- A signal that reached a process: which one, when its pidfd was opened, and when it was sent. -/
structure Delivery where
  process : ℕ
  opened : ℕ
  sent : ℕ
  deriving DecidableEq, Repr

/-- What opening a pidfd comes to. -/
inductive Pidfd
  | gone
  | refused
  | process (born : ℕ)
  deriving DecidableEq, Repr

/-- And sending a signal by it. -/
inductive Signalled
  | gone
  | refused
  | reached (delivery : Delivery)
  deriving DecidableEq, Repr

/-- `os.pidfd_open`. -/
def pidfdOpen (number : ℕ) : Look Pidfd :=
  look fun w =>
    if w.pidfds then return (w.entry (pidText number)).elim .gone fun process => .process process.born
    else return .refused

/-- `signal.pidfd_send_signal`: it reaches the process, whatever has its number. -/
def pidfdSendSignal (opened born : ℕ) : Look Signalled := do
  let sent ← moment
  look fun w =>
    if w.pidfds then
      return if w.processes.any (·.born == born) then .reached ⟨born, opened, sent⟩ else .gone
    else return .refused

/-- The holder is this user's backend of the device. -/
def isOurs (uid : ℕ) (device : Discovery.Device) (holder : BackendOwner) : Look Bool :=
  if holder.oscmix = false ∨ holder.client ≠ device.client ∨ holder.serial ≠ some device.serial then return false
  else do
    let own ← findStaleBackends uid
    return own.any (· == holder.pid)

/-- `_still_stale`. -/
def stillStale (uid pid : ℕ) (path : List Char) (device : Discovery.Device) : Look Bool := do
  let holder ← attempt (controlHolder path)
  match holder.join with
  | none => return false
  | some holder =>
      if holder.pid ≠ pid then return false
      else
        let ours ← isOurs uid device holder
        if ours = false then return false
        else
          let session ← supervisingSession (pidText pid)
          return session.isNone

/-- `_terminate`, with the signal it delivered. -/
def terminate (pid : ℕ) (stillStale : Look Bool) : Look (Bool × Option Delivery) := do
  let opened ← moment
  match ← pidfdOpen pid with
  | .gone => return (true, none)
  | .refused => return (false, none)
  | .process born =>
      let stale ← stillStale
      if stale = false then return (false, none)
      else
        match ← pidfdSendSignal opened born with
        | .gone => return (true, none)
        | .refused => return (false, none)
        | .reached delivery => return (true, some delivery)

/-- What becomes of a holder that is known: it is left alone, or terminated where it is an orphan of ours. -/
def cleanupHolder (uid : ℕ) (path : List Char) (device : Discovery.Device) (holder : BackendOwner) :
    Look (Option ℤ × Option Delivery) := do
  let ours ← isOurs uid device holder
  if ours = false then return (some holder.pid, none)
  else
    match ← supervisingSession (pidText holder.pid) with
    | some session => return (readInt session, none)
    | none =>
        let (done, delivery) ← terminate holder.pid (stillStale uid holder.pid path device)
        return (if done then none else some holder.pid, delivery)

/-- `_cleanup_stale_backend`, with the signal it delivered. -/
def cleanupStaleBackend (uid : ℕ) (path : List Char) (device : Discovery.Device) :
    Look (Option ℤ × Option Delivery) := do
  let endpoint ← look fun w => return w.endpoint
  match endpoint with
  | .missing => return (none, none)
  | .refused => throw .os
  | .other => return (some (-1), none)
  | .socket =>
      match ← attempt (controlHolder path) with
      | none => return (some (-1), none)
      | some none => return (none, none)
      | some (some holder) => cleanupHolder uid path device holder

end OscmixDesk.Process
