/-
**Reloading the registered desk** (`hostservice.py`).

OpenRC and runit run the desk under a supervisor of root's. Its process is looked up in the supervisor's own
files and checked against the registration, again and again until it catches SIGHUP, and then signalled by a
pidfd.
-/

import OscmixDesk.Model.Processes

namespace OscmixDesk.Process

open Effects Observed Patterns Text

/-! ### The registration -/

inductive Manager
  | openrc
  | runit
  deriving DecidableEq, Repr

structure HostService where
  manager : Manager
  user : List Char
  uid : ℕ
  home : List Char
  config : List Char
  command : List Char

/-- `/run/oscmix-desk-supervisor.pid`. -/
def supervisorPidPath : List Char :=
  ['/', 'r', 'u', 'n', '/', 'o', 's', 'c', 'm', 'i', 'x', '-', 'd', 'e', 's', 'k', '-', 's', 'u', 'p', 'e',
    'r', 'v', 'i', 's', 'o', 'r', '.', 'p', 'i', 'd']

/-- `/var/service/oscmix-desk`. -/
def runitService : List Char :=
  ['/', 'v', 'a', 'r', '/', 's', 'e', 'r', 'v', 'i', 'c', 'e', '/', 'o', 's', 'c', 'm', 'i', 'x', '-', 'd',
    'e', 's', 'k']

def Manager.name : Manager → List Char
  | .openrc => ['o', 'p', 'e', 'n', 'r', 'c']
  | .runit => ['r', 'u', 'n', 'i', 't']

def superviseDaemon : List Char :=
  ['s', 'u', 'p', 'e', 'r', 'v', 'i', 's', 'e', '-', 'd', 'a', 'e', 'm', 'o', 'n']

def oscmixDesk : List Char :=
  ['o', 's', 'c', 'm', 'i', 'x', '-', 'd', 'e', 's', 'k']

/-- `OSCMIX_SERVICE_MANAGER=`. -/
def managerVariable : List Char :=
  ['O', 'S', 'C', 'M', 'I', 'X', '_', 'S', 'E', 'R', 'V', 'I', 'C', 'E', '_', 'M', 'A', 'N', 'A', 'G', 'E',
    'R', '=']

/-- A file of root's that no one else can have written; each of its looks is a read of its own. -/
def rootFile (file : Host → Option RootFile) : Look (List Char) := do
  let info ← look fun w => ((file w.host).elim (throw .missing) pure : Except Fault RootFile)
  if info.regular = false ∨ info.uid ≠ 0 ∨ info.mode &&& 0o022 ≠ 0 then throw .os
  else
    let info ← look fun w => ((file w.host).elim (throw .missing) pure : Except Fault RootFile)
    if info.parents.any fun parent => parent.1 != 0 || parent.2 &&& 0o022 != 0 then throw .os
    else look fun w => (file w.host).elim (throw .missing) fun info => return newlines info.text

/-- The arguments of a command line, each closed by NUL. -/
def closedArgs (cmdline : List Char) : List (List Char) :=
  (splitNul cmdline).dropLast

/-- Whether the arguments are the registered command's, itself or as a script of Python. -/
def HostService.commands (service : HostService) (argv : List (List Char)) : Bool :=
  let expected := [service.command, ['-', '-', 'c', 'o', 'n', 'f', 'i', 'g'], service.config]
  argv == expected || argv.length == 4 && argv.tail == expected
    && ['p', 'y', 't', 'h', 'o', 'n', '3'].isPrefixOf (pathName (argv.head?.getD []))

/-- Whether the environment is the registered one. -/
def HostService.surrounds (service : HostService) (environ : List Char) : Bool :=
  (splitNul environ).any (· == managerVariable ++ service.manager.name)
    && (splitNul environ).any (· == ['H', 'O', 'M', 'E', '='] ++ service.home)

/-- `_matches`. -/
def matchesService (service : HostService) (pid : ℕ) : Look Bool := do
  let uid ← attempt (ofEntry (pidText pid) fun process => return process.uid)
  if uid ≠ some service.uid then return false
  else
    let cmdline ← attempt (ofEntry (pidText pid) fun process => return process.cmdline)
    if cmdline.any (fun cmdline => service.commands (closedArgs cmdline)) = false then return false
    else
      let environ ← attempt (ofEntry (pidText pid) fun process => process.environ.elim (throw .os) pure)
      return environ.any service.surrounds

/-! ### Its main process -/

/-- `text.split()`. -/
def words (text : List Char) : List (List Char) :=
  splitBlanks text.length text

/-- Whether the arguments are those of the registered supervisor. -/
def HostService.supervisedBy (service : HostService) (argv : List (List Char)) : Bool :=
  decide (3 ≤ argv.length) && pathName (argv.head?.getD []) == superviseDaemon
    && (argv.drop 1).take 2 == [oscmixDesk, ['-', '-', 's', 't', 'a', 'r', 't']]
    && (argv.zip argv.tail).any (· == (['-', '-', 'p', 'i', 'd', 'f', 'i', 'l', 'e'], supervisorPidPath))
    && (argv.zip argv.tail).any (· == (['-', '-', 'u', 's', 'e', 'r'], service.user))

/-- `^PPid:\s+([1-9][0-9]*)$`. -/
def statusParentRe : List Piece :=
  [{ item := .lineStart }] ++ literal ['P', 'P', 'i', 'd', ':'] ++ [Discovery.blanks 1,
    { item := .one fun c => '1' ≤ c && c ≤ '9', group := true },
    { item := .many (fun c => '0' ≤ c && c ≤ '9') 0 false, group := true }, { item := .lineEnd }]

/-- `[0-9a-fA-F]`. -/
def isHexadecimal (c : Char) : Bool :=
  '0' ≤ c && c ≤ '9' || 'a' ≤ c && c ≤ 'f' || 'A' ≤ c && c ≤ 'F'

/-- `^SigCgt:\s+([0-9a-fA-F]+)$`. -/
def caughtRe : List Piece :=
  [{ item := .lineStart }] ++ literal ['S', 'i', 'g', 'C', 'g', 't', ':'] ++ [Discovery.blanks 1,
    { item := .many isHexadecimal 1 false, group := true }, { item := .lineEnd }]

/-- `int(…, 16)` of hexadecimal digits. -/
def hexadecimal (digits : List Char) : ℕ :=
  digits.foldl (fun number c => 16 * number
    + if c ≤ '9' then c.toNat - 48 else if c ≤ 'F' then c.toNat - 55 else c.toNat - 87) 0

/-- The signals that a process catches, from its `status`. -/
def caughtSignals (status : List Char) : Option ℕ :=
  (findall caughtRe (newlines status)).head?.map fun groups => hexadecimal groups.flatten

/-- `int(text)` of digits; a digit that is no decimal one raises. -/
def numberOf (text : List Char) : Except Fault ℕ :=
  (readInt text).elim (throw .value) fun number => return number.toNat

/-- The supervisor's number, from OpenRC's pid file. -/
def openrcSupervisor : Look (List Char) := do
  let text ← rootFile Host.supervisorPid
  let supervisor := strip text
  if allDigits supervisor = false then throw .os
  else
    let number ← lift (numberOf supervisor)
    if number ≤ 1 then throw .os else return supervisor

/-- The children of the supervisor, once it is known. -/
def openrcChildren (service : HostService) (supervisor : List Char) : Look (List ℕ) := do
  let cmdline ← ofEntry supervisor fun process => return process.cmdline
  let uid ← ofEntry supervisor fun process => return process.uid
  if uid ≠ 0 ∨ service.supervisedBy (closedArgs cmdline) = false then throw .os
  else
    let children ← ofEntry supervisor fun process => return process.children
    lift (((words children).filter allDigits).mapM numberOf)

/-- Whether the process's parent is the `runsv` of the desk. -/
def runitParent (shown : List Char) : Look Unit := do
  let status ← ofEntry shown fun process => return process.status
  match (findall statusParentRe (newlines status)).head? with
  | none => throw .os
  | some groups =>
      let cmdline ← ofEntry groups.flatten fun process => return process.cmdline
      let target ← look fun w => return w.host.runitTarget
      let uid ← ofEntry groups.flatten fun process => return process.uid
      match closedArgs cmdline with
      | [program, name] =>
          if uid ≠ 0 ∨ pathName program ≠ ['r', 'u', 'n', 's', 'v']
              ∨ [oscmixDesk, runitService, target].any (· == name) = false then throw .os
          else return ()
      | _ => throw .os

/-- `except FileNotFoundError: return None`. -/
def unlessMissing {α : Type} (prog : Look α) : Look (Option α) :=
  tryCatch (some <$> prog) fun problem => if problem = .missing then return none else throw problem

/-- The registered service's main process. -/
def mainPid (uid : ℕ) (service : HostService) : Look (Option ℕ) := do
  if service.uid ≠ uid then return none
  else
    match service.manager with
    | .openrc =>
        match ← unlessMissing openrcSupervisor with
        | none => return none
        | some supervisor =>
            match ← unlessMissing (openrcChildren service supervisor) with
            | none => return none
            | some candidates =>
                let matched ← candidates.mapM (matchesService service)
                let found := ((candidates.zip matched).filter Prod.snd).map Prod.fst
                if 1 < found.length then throw .os else return found.head?
    | .runit =>
        let exists' ← look fun w => return w.host.runitExists
        if exists' = false then return none
        else
          match ← unlessMissing (rootFile Host.runitPid) with
          | none => return none
          | some text =>
              let shown := strip text
              if shown = [] then return none
              else if allDigits shown = false then throw .os
              else
                let number ← lift (numberOf shown)
                if number ≤ 1 then throw .os
                else
                  let matched ← matchesService service number
                  if matched = false then return none
                  else
                    let parent ← unlessMissing (runitParent shown)
                    return parent.map fun _ => number

/-! ### The signal -/

inductive Reload
  | notRunning
  | failed
  | reloaded
  deriving DecidableEq, Repr

/-- `RELOAD_READY_TIMEOUT`. -/
def reloadReadyTimeout : ℚ := 5

/-- Whether the main process, looked up again and again, catches SIGHUP before the deadline; out of turns is
out of time. -/
def awaitHandler (uid : ℕ) (service : HostService) (pid : ℕ) (deadline : ℚ) : ℕ → Look Bool
  | 0 => return false
  | turns + 1 => do
      let main ← mainPid uid service
      if main ≠ some pid then return false
      else
        let matched ← matchesService service pid
        if matched = false then return false
        else
          let status ← ofEntry (pidText pid) fun process => return process.status
          match caughtSignals status with
          | none => return false
          | some caught =>
              if caught &&& 1 ≠ 0 then return true
              else
                let now ← look fun w => return w.clock
                if deadline ≤ now then return false else awaitHandler uid service pid deadline turns

/-- What `reload` tries: the signal to a process that is pinned and then looked up again. -/
def signalPinned (uid turns : ℕ) (service : HostService) (pid : ℕ) : Look (Reload × Option Delivery) := do
  let opened ← moment
  match ← pidfdOpen pid with
  | .process born =>
      let now ← look fun w => return w.clock
      let caught ← awaitHandler uid service pid (now + reloadReadyTimeout) turns
      if caught = false then return (.failed, none)
      else
        match ← pidfdSendSignal opened born with
        | .reached delivery => return (.reloaded, some delivery)
        | _ => return (.failed, none)
  | _ => return (.failed, none)

/-- `reload`, with the signal it delivered. -/
def reload (uid turns : ℕ) (service : HostService) : Look (Reload × Option Delivery) := do
  match ← mainPid uid service with
  | none => return (.notRunning, none)
  | some pid =>
      tryCatch (signalPinned uid turns service pid) fun problem =>
        if problem = .value then throw problem else return (.failed, none)

end OscmixDesk.Process
