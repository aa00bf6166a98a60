/-
**RingBuffer buffers.**

A queue in an array that wraps around: `count` cells from `head` on are in use. Under the bounds of
`Fits` it behaves as the list of what it holds (`contents`):

* `contents_push` — one more at the end, where there is room;
* `contents_pop` — one less at the front, where there is one.
-/

import Mathlib.Data.List.Basic

namespace OscmixDesk

structure RingBuffer (α : Type) where
  cells : ℕ → α
  head : ℕ := 0
  count : ℕ := 0

namespace RingBuffer

variable {α : Type} (capacity : ℕ)

/-- What the ring holds, first to last. -/
def contents (ring : RingBuffer α) : List α :=
  (List.range ring.count).map fun k => ring.cells ((ring.head + k) % capacity)

def first (ring : RingBuffer α) : α :=
  ring.cells ring.head

def push (item : α) (ring : RingBuffer α) : RingBuffer α :=
  { ring with
    cells := Function.update ring.cells ((ring.head + ring.count) % capacity) item
    count := ring.count + 1 }

def pop (ring : RingBuffer α) : RingBuffer α :=
  { ring with head := (ring.head + 1) % capacity, count := ring.count - 1 }

/-- The head is a cell, and no cell is in use twice. -/
structure Fits (ring : RingBuffer α) : Prop where
  head : ring.head < capacity
  count : ring.count ≤ capacity

variable {capacity}

@[simp] theorem length_contents (ring : RingBuffer α) : (ring.contents capacity).length = ring.count := by
  simp [contents]

theorem contents_eq_nil {ring : RingBuffer α} : ring.contents capacity = [] ↔ ring.count = 0 := by
  rw [← List.length_eq_zero_iff, length_contents]

/-- Cells fewer than the capacity apart are different ones. -/
theorem cell_ne {head j k : ℕ} (less : j < k) (within : k < head + capacity) (from_head : head ≤ j) :
    j % capacity ≠ k % capacity := by
  intro same
  have apart : (k - j) % capacity = 0 := Nat.sub_mod_eq_zero_of_mod_eq same.symm
  rw [Nat.mod_eq_of_lt (by omega)] at apart
  omega

theorem contents_push {ring : RingBuffer α} (item : α) (room : ring.count < capacity) :
    (ring.push capacity item).contents capacity = ring.contents capacity ++ [item] := by
  unfold contents
  show (List.range (ring.count + 1)).map _ = _
  rw [List.range_succ, List.map_append, List.map_singleton]
  congr 1
  · refine List.map_congr_left fun k within => ?_
    have less := List.mem_range.mp within
    refine Function.update_of_ne (cell_ne ?_ ?_ (Nat.le_add_right ring.head k)) _ _
    · omega
    · omega
  · exact congrArg (fun cell => [cell]) (Function.update_self _ _ _)

theorem contents_pop {ring : RingBuffer α} (fits : ring.Fits capacity) (held : ring.count ≠ 0) :
    ring.contents capacity = ring.first :: (ring.pop capacity).contents capacity := by
  obtain ⟨rest, more⟩ : ∃ rest, ring.count = rest + 1 := ⟨ring.count - 1, by omega⟩
  unfold contents
  rw [more, List.range_succ_eq_map, List.map_cons, List.map_map]
  congr 1
  · show ring.cells _ = ring.cells ring.head
    rw [Nat.add_zero, Nat.mod_eq_of_lt fits.head]
  · show _ = (List.range (ring.count - 1)).map _
    rw [more]
    refine List.map_congr_left fun k _ => ?_
    show ring.cells ((ring.head + (k + 1)) % capacity) = ring.cells (((ring.head + 1) % capacity + k) % capacity)
    rw [Nat.mod_add_mod, Nat.add_right_comm, Nat.add_assoc]

theorem Fits.push {ring : RingBuffer α} (fits : ring.Fits capacity) (item : α) (room : ring.count < capacity) :
    (ring.push capacity item).Fits capacity :=
  ⟨fits.head, room⟩

theorem Fits.pop {ring : RingBuffer α} (fits : ring.Fits capacity) : (ring.pop capacity).Fits capacity :=
  ⟨Nat.mod_lt _ (Nat.zero_lt_of_lt fits.head), Nat.le_trans (Nat.sub_le _ _) fits.count⟩

end RingBuffer

end OscmixDesk
