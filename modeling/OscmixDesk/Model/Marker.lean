/-
**The active profile** (`marker.py`).

Which profile is in effect is remembered in a file beside the configuration. A writer builds the new marker beside the
old one and renames it over (`rememberActiveProfile`), or removes it (`forgetActiveProfile`); a reader takes what is
there, if it is the name of a profile (`activeProfile`). The writers are programs of system calls, each of which may
fail; writers of other profiles, and of other configurations in the directory, run beside them.
-/

import OscmixDesk.Foundation.Calls
import OscmixDesk.Foundation.Disk
import OscmixDesk.Foundation.Text
import OscmixDesk.Model.Outcomes

namespace OscmixDesk.Marker

/-! ### Names -/

/-- `ACTIVE_MARKER`. -/
def activeMarker : String := "active-profile"

/-- The marker of a configuration, by the name of its file. -/
def activeProfilePath (config : String) : String :=
  if config = "routing.conf" then activeMarker else activeMarker ++ "." ++ config

/-- `[A-Za-z0-9]`. -/
def isAlphanumeric (c : Char) : Bool :=
  ('A' ≤ c && c ≤ 'Z') || ('a' ≤ c && c ≤ 'z') || ('0' ≤ c && c ≤ '9')

/-- `[A-Za-z0-9][A-Za-z0-9._-]*`. -/
def isProfileName : List Char → Bool
  | [] => false
  | first :: rest => isAlphanumeric first && rest.all fun c => isAlphanumeric c || c = '.' || c = '_' || c = '-'

/-- What a marker holds: the name and a newline. -/
def encode (name : String) : List UInt8 :=
  (name ++ "\n").toUTF8.data.toList

/-! ### Calls -/

/-- The calls of the writers; `fchmod`, the mode of a new marker, and the handles change no file. -/
inductive Request
  | mkstemp (stem : String)
  | fchmod (file : ℕ)
  | write (file : ℕ) (data : List UInt8)
  | fsync (file : ℕ)
  | close (file : ℕ)
  | replace (source target : String)
  | unlink (name : String)
  | openDirectory
  | fsyncDirectory
  | closeDirectory

/-- What an `unlink` found. -/
inductive Unlinked
  | removed
  | missing
  | failed
  deriving DecidableEq, Repr

/-- What the calls answer: a new file with its name, how much was written, or whether the call succeeded. -/
abbrev Answer : Request → Type
  | .mkstemp _ => Option (String × ℕ)
  | .write _ data => Option { count : ℕ // 0 < count ∧ count ≤ data.length }
  | .unlink _ => Unlinked
  | _ => Bool

/-- A program of these calls. -/
abbrev Script := Calls Request Answer

open Calls Switching

/-- Writes all of the data. A write may take less than it is given without failing. -/
def writeAll (file : ℕ) (data : List UInt8) : Script Bool :=
  if data = [] then .done true
  else .call (.write file data) fun
    | none => .done false
    | some count => writeAll file (data.drop count.1)
termination_by data.length
decreasing_by
  have := count.2
  rw [List.length_drop]
  omega

/-- A system call. -/
def sys (request : Request) : Script (Answer request) :=
  ask request

/-- What follows where the call before it succeeded. -/
def onSuccess (succeeded : Bool) (rest : Script Bool) : Script Bool :=
  if succeeded then rest else .done false

/-- Builds the new file, and closes it however that ends. -/
def build (file : ℕ) (data : List UInt8) : Script Bool := do
  let moded ← sys (.fchmod file)
  let written ← onSuccess moded (writeAll file data)
  let synced ← onSuccess written (sys (.fsync file))
  let closed ← sys (.close file)
  return synced && closed

/-- Makes a rename or an unlink durable. It answers whether it could, or stops where the handle cannot be closed. -/
def fsyncDirectory : Script (Except Unit Bool) := do
  let opened ← sys .openDirectory
  if opened then do
    let synced ← sys .fsyncDirectory
    let closed ← sys .closeDirectory
    return if closed then .ok synced else .error ()
  else return .ok false

/-- A change that is in effect, and durable or not. -/
def effective (durable : Bool) : Marked :=
  ⟨true, durable, fun _ => rfl⟩

/-- The change could not be made. -/
def unmarked : Marked :=
  ⟨false, false, fun impossible => impossible⟩

/-- Renames the new marker over the old one, if it was built, or removes it. -/
def publish (temporary path : String) (built : Bool) : Script (Except Unit Marked) := do
  let replaced ← onSuccess built (sys (.replace temporary path))
  if replaced then return (← fsyncDirectory).map effective
  else
    let _ ← sys (.unlink temporary)
    return .ok unmarked

/-- Records a profile that was applied. -/
def rememberActiveProfile (name : String) (config : Option String) : Script (Except Unit Marked) :=
  match config with
  | none => pure (.ok unmarked)
  | some config => do
      let path := activeProfilePath config
      let made : Option (String × ℕ) ← sys (.mkstemp (path ++ "."))
      match made with
      | none =>
          let _ ← sys (.unlink "")
          return .ok unmarked
      | some (temporary, file) => publish temporary path (← build file (encode name))

/-- Removes the marker. -/
def forgetActiveProfile (config : Option String) : Script (Except Unit Marked) :=
  match config with
  | none => pure (.ok (effective true))
  | some config => do
      let found : Unlinked ← sys (.unlink (activeProfilePath config))
      match found with
      | .missing => return .ok (effective true)
      | .failed => return .ok unmarked
      | .removed => return (← fsyncDirectory).map effective

/-! ### The directory -/

/-- The directory of the configurations, with the process that made each file. -/
structure Folder (ι : Type) where
  disk : Disk String UInt8
  maker : ℕ → Option ι

/-- What the calls do. Every call may fail. -/
inductive Law {ι : Type} [DecidableEq ι] (i : ι) :
    (request : Request) → Folder ι → Answer request → Folder ι → Prop
  | noTemporary {stem : String} {now : Folder ι} : Law i (.mkstemp stem) now none now
  | temporary {stem : String} {now : Folder ι} (random : String)
      (absent : now.disk.entry (stem ++ random ++ ".tmp") = none) :
      Law i (.mkstemp stem) now (some (stem ++ random ++ ".tmp", now.disk.fresh))
        ⟨now.disk.create (stem ++ random ++ ".tmp"), Function.update now.maker now.disk.fresh (some i)⟩
  | fchmod {file : ℕ} {now : Folder ι} (moded : Bool) : Law i (.fchmod file) now moded now
  | noWrite {file : ℕ} {data : List UInt8} {now : Folder ι} : Law i (.write file data) now none now
  | write {file : ℕ} {data : List UInt8} {now : Folder ι} (count : { count : ℕ // 0 < count ∧ count ≤ data.length }) :
      Law i (.write file data) now (some count) ⟨now.disk.write file (data.take count.1), now.maker⟩
  | noFsync {file : ℕ} {now : Folder ι} : Law i (.fsync file) now false now
  | fsync {file : ℕ} {now : Folder ι} : Law i (.fsync file) now true ⟨now.disk.sync file, now.maker⟩
  | close {file : ℕ} {now : Folder ι} (closed : Bool) : Law i (.close file) now closed now
  | noReplace {source target : String} {now : Folder ι} : Law i (.replace source target) now false now
  | replace {source target : String} {now : Folder ι} (stands : (now.disk.entry source).isSome) :
      Law i (.replace source target) now true ⟨now.disk.rename source target, now.maker⟩
  | noUnlink {name : String} {now : Folder ι} : Law i (.unlink name) now .failed now
  | missing {name : String} {now : Folder ι} (absent : name = "" ∨ now.disk.entry name = none) :
      Law i (.unlink name) now .missing now
  | unlink {name : String} {now : Folder ι} (named : name ≠ "") (stands : (now.disk.entry name).isSome) :
      Law i (.unlink name) now .removed ⟨now.disk.unlink name, now.maker⟩
  | openDirectory {now : Folder ι} (opened : Bool) : Law i .openDirectory now opened now
  | noSync {now : Folder ι} : Law i .fsyncDirectory now false now
  | syncNames {now : Folder ι} : Law i .fsyncDirectory now true ⟨now.disk.syncNames, now.maker⟩
  | closeDirectory {now : Folder ι} (closed : Bool) : Law i .closeDirectory now closed now

/-- What a process is asked to do. -/
inductive Job
  | remember (name : String) (config : Option String)
  | forget (config : Option String)

def Job.config : Job → Option String
  | remember _ config => config
  | forget config => config

def Job.script : Job → Script (Except Unit Marked)
  | remember name config => rememberActiveProfile name config
  | forget config => forgetActiveProfile config

/-- Writers side by side. One that dies leaves its files; a power cut leaves what was synced, and ends them all. -/
def writers {ι : Type} [DecidableEq ι] (job : ι → Job) :
    Concurrent ι Request Answer (Except Unit Marked) (Folder ι) where
  program i := (job i).script
  law := Law
  dies _ now after := after = now
  stops now after := Disk.Cut now.disk after.disk ∧ after.maker = now.maker

/-- What a reader takes a text for: one that is no name of a profile is none. -/
def decode (text : List UInt8) : Option String := do
  let text ← String.fromUTF8? ⟨text.toArray⟩
  let name := Text.strip text.toList
  if isProfileName name then some (String.ofList name) else none

/-- The profile the marker of a configuration names. -/
def activeProfile (disk : Disk String UInt8) (config : Option String) : Option String := do
  let file ← disk.entry (activeProfilePath (← config))
  decode (disk.content file)

end OscmixDesk.Marker
