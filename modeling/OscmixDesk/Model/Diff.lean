/-
**What a start would write** (`--diff`, `reads.py`).

The desk is compared with one reading of the device. What differs is announced, then listed phase by phase; what
the device never reports is counted apart. Here is what is printed, before it is put in words.
-/

import OscmixDesk.Model.Reconcile

namespace OscmixDesk.Diff

/-- The registers of one reading of the device, each with its latest value. -/
abbrev Reading := List (Path × Args)

/-- `seen.get(path)`. -/
def Reading.get? (seen : Reading) (path : Path) : Option Args :=
  List.lookup path seen

/-- The phases of the listing, each with its heading. -/
def phaseNames : List (Phase × String) :=
  [(.link, "links"), (.mix, "mix matrix"), (.channel, "channel and global state")]

/-- A line of the output. -/
inductive Printed
  /-- "the device matches the config". -/
  | matching
  /-- "… register(s) differ from the config:". -/
  | announce (count : ℕ)
  /-- "phase … -- …". -/
  | heading (phase : Phase) (name : String)
  /-- A register: the path, the value of the config, the value of the device and the reason. -/
  | register (write : Write) (device : Option Args)
  /-- "… more would be rewritten regardless: …". -/
  | rewritten (count : ℕ)
  deriving DecidableEq, Repr

def exitOk : ℕ := 0

def exitFailure : ℕ := 1

def exitDiffers : ℕ := 3

/-- The writes of a phase under its heading, in the order of their paths. -/
def listPhase (seen : Reading) (differing : List Write) (phase : Phase × String) : List Printed :=
  let writes := differing.filter (·.phase = phase.1)
  if writes.isEmpty then []
  else .heading phase.1 phase.2 ::
    (writes.insertionSort fun first second => first.path.render ≤ second.path.render).map fun write =>
      .register write (seen.get? write.path)

/-- Prints what an apply would write; the exit code, and the lines. A reading that failed is `none`. -/
def diff (config : Config) (reading : Option Reading) : Except Fault (ℕ × List Printed) :=
  match reading with
  | none => return (exitFailure, [])
  | some seen => do
      let entries ← desired config
      let result := plan entries (some seen.get?) (deviceForName config.deviceName)
      let differing := result.writes.filter (·.reason ≠ .rewrite)
      let rewritten := result.writes.filter (·.reason = .rewrite)
      let listing :=
        if differing.isEmpty then [.matching]
        else .announce differing.length :: phaseNames.flatMap (listPhase seen differing)
      let rest := if rewritten.isEmpty then [] else [.rewritten rewritten.length]
      return (if differing.isEmpty then exitOk else exitDiffers, listing ++ rest)

end OscmixDesk.Diff
