/-
**A directory on a disk that may lose its power.**

A name stands for one file at a time; a `Disk` keeps what each name stood for, version by version, and how many of the
versions are on the disk for good. A file keeps what was written to it, and is safe once the disk has all of it.

* `write`, `sync`, `create`, `rename`, `unlink`, `syncNames` — what a program does to the directory;
* `Cut` — what a power cut leaves: every name as it was at some time since the directory was last synced, and every
  safe file as it was;
* `Cut.lingers` — so what a name stands for behind a cut is one of the files it lingered on.
-/

import Mathlib.Logic.Function.Basic
import Mathlib.Order.Nat

namespace OscmixDesk

/-- One directory. Files are numbered in the order of their creation. -/
structure Disk (ν β : Type) where
  /-- What a name stood for, version by version. -/
  held : ν → ℕ → Option ℕ
  version : ν → ℕ
  /-- The version of a name that no power cut undoes. -/
  synced : ν → ℕ
  content : ℕ → List β
  /-- Whether the disk has all of a file. -/
  safe : ℕ → Bool
  /-- The number of the next file. -/
  fresh : ℕ
  ordered : ∀ name, synced name ≤ version name

namespace Disk

variable {ν β : Type}

/-- The file a name stands for. -/
def entry (disk : Disk ν β) (name : ν) : Option ℕ :=
  disk.held name (disk.version name)

/-- A file a name may stand for behind a power cut, or stands for now. -/
def Lingers (disk : Disk ν β) (name : ν) (file : ℕ) : Prop :=
  ∃ k, disk.synced name ≤ k ∧ k ≤ disk.version name ∧ disk.held name k = some file

theorem lingers_entry {disk : Disk ν β} {name : ν} {file : ℕ} (stands : disk.entry name = some file) :
    disk.Lingers name file :=
  ⟨disk.version name, disk.ordered name, le_rfl, stands⟩

/-! ### Files -/

/-- Some bytes at the end of a file. -/
def write (disk : Disk ν β) (file : ℕ) (bytes : List β) : Disk ν β :=
  { disk with
    content := Function.update disk.content file (disk.content file ++ bytes)
    safe := Function.update disk.safe file false }

/-- Brings all of a file to the disk. -/
def sync (disk : Disk ν β) (file : ℕ) : Disk ν β :=
  { disk with safe := Function.update disk.safe file true }

/-- Brings every name to the disk. -/
def syncNames (disk : Disk ν β) : Disk ν β :=
  { disk with synced := disk.version, ordered := fun _ => le_rfl }

/-- No name lingers on more files than before. -/
theorem syncNames_lingers {disk : Disk ν β} {name : ν} {file : ℕ} (lingers : disk.syncNames.Lingers name file) :
    disk.Lingers name file := by
  obtain ⟨k, low, high, stood⟩ := lingers
  exact ⟨k, (disk.ordered name).trans low, high, stood⟩

/-! ### Names -/

section Names

variable [DecidableEq ν]

/-- Lets a name stand for something else. -/
def point (disk : Disk ν β) (name : ν) (file : Option ℕ) : Disk ν β :=
  { disk with
    held := Function.update disk.held name (Function.update (disk.held name) (disk.version name + 1) file)
    version := Function.update disk.version name (disk.version name + 1)
    ordered := fun other => by
      by_cases same : other = name
      · subst same
        rw [Function.update_self]
        exact Nat.le_succ_of_le (disk.ordered other)
      · rw [Function.update_of_ne same]
        exact disk.ordered other }

/-- A new, empty file. -/
def create (disk : Disk ν β) (name : ν) : Disk ν β :=
  { disk.point name (some disk.fresh) with
    content := Function.update disk.content disk.fresh []
    safe := Function.update disk.safe disk.fresh false
    fresh := disk.fresh + 1 }

def unlink (disk : Disk ν β) (name : ν) : Disk ν β :=
  disk.point name none

/-- Lets a name stand for the file of another one, which is gone, in one step. -/
def rename (disk : Disk ν β) (source target : ν) : Disk ν β :=
  (disk.unlink source).point target (disk.entry source)

variable {disk : Disk ν β} {name other : ν} {file : Option ℕ} {k : ℕ}

theorem point_version : disk.version other ≤ (disk.point name file).version other := by
  show _ ≤ Function.update disk.version name (disk.version name + 1) other
  by_cases same : other = name
  · subst same
    rw [Function.update_self]
    exact Nat.le_succ _
  · rw [Function.update_of_ne same]

theorem point_held (old : k ≤ disk.version other) : (disk.point name file).held other k = disk.held other k := by
  show Function.update disk.held name _ other k = _
  by_cases same : other = name
  · subst same
    rw [Function.update_self, Function.update_of_ne (by omega)]
  · rw [Function.update_of_ne same]

/-- The newest version of a name that was pointed elsewhere is what it was pointed to; all the others are as they
were. -/
theorem point_cases (now : k ≤ (disk.point name file).version other) : k ≤ disk.version other
    ∨ other = name ∧ k = disk.version name + 1 ∧ (disk.point name file).held other k = file := by
  change k ≤ Function.update disk.version name (disk.version name + 1) other at now
  by_cases same : other = name
  · subst same
    rw [Function.update_self] at now
    rcases Nat.lt_or_ge (disk.version other) k with later | old
    · obtain rfl : k = disk.version other + 1 := by omega
      refine Or.inr ⟨rfl, rfl, ?_⟩
      show Function.update disk.held other _ other _ = file
      rw [Function.update_self, Function.update_self]
    · exact Or.inl old
  · rw [Function.update_of_ne same] at now
    exact Or.inl now

@[simp] theorem point_entry : (disk.point name file).entry name = file := by
  show Function.update disk.held name _ name (Function.update disk.version name _ name) = file
  rw [Function.update_self, Function.update_self, Function.update_self]

theorem point_entry_other (apart : other ≠ name) : (disk.point name file).entry other = disk.entry other := by
  show Function.update disk.held name _ other (Function.update disk.version name _ other) = _
  rw [Function.update_of_ne apart, Function.update_of_ne apart]
  rfl

/-- What a name lingers on, it lingered on, or it was pointed to it. -/
theorem point_lingers {found : ℕ} (lingers : (disk.point name file).Lingers other found) :
    disk.Lingers other found ∨ other = name ∧ file = some found := by
  obtain ⟨k, low, high, stood⟩ := lingers
  rcases point_cases high with old | ⟨same, -, new⟩
  · exact Or.inl ⟨k, low, old, (point_held old).symm.trans stood⟩
  · exact Or.inr ⟨same, new.symm.trans stood⟩

end Names

/-! ### Power -/

/-- What a power cut leaves. -/
structure Cut (disk after : Disk ν β) : Prop where
  since : ∀ name, disk.synced name ≤ after.version name ∧ after.version name ≤ disk.version name
  settled : after.synced = after.version
  held : ∀ name k, k ≤ after.version name → after.held name k = disk.held name k
  whole : ∀ file, disk.safe file = true → after.content file = disk.content file ∧ after.safe file = true
  fresh : after.fresh = disk.fresh

/-- What a name lingers on behind a power cut, it lingered on before. -/
theorem Cut.lingers {disk after : Disk ν β} (cut : Cut disk after) {name : ν} {file : ℕ}
    (lingers : after.Lingers name file) : disk.Lingers name file := by
  obtain ⟨k, low, high, stood⟩ := lingers
  rw [cut.settled] at low
  exact ⟨k, (cut.since name).1.trans low, high.trans (cut.since name).2, (cut.held name k high).symm.trans stood⟩

end Disk

end OscmixDesk
