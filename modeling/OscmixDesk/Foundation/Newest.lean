/-
**The newest item of each key.**

Several writers keep a map each; a reader goes over all their items and holds, under every key, the one with
the latest stamp, the later of two with the same stamp.

* `newest` — what the reader holds; `mem_newest` says that it was read, and `le_newest` that nothing under
  its key is later;
* `newest_of_latest` — an item that is later than every other one under its key is held.
-/

import Mathlib.Data.List.Induction
import Mathlib.Order.Lattice
import Mathlib.Tactic.SplitIfs
import OscmixDesk.Foundation.Keyed

namespace OscmixDesk

section Newest

variable {α κ σ : Type} [DecidableEq κ] [LinearOrder σ] {key : α → κ}

/-- One more item is read. -/
def takeNewer (stamp : α → σ) (held : Keyed key) (item : α) : Keyed key :=
  match held.get? (key item) with
  | some other => if stamp other ≤ stamp item then held.put item else held
  | none => held.put item

/-- What a reader of all the items holds. -/
def newest (stamp : α → σ) (items : List α) : Keyed key :=
  items.foldl (takeNewer stamp) Keyed.empty

variable {stamp : α → σ} {items : List α} {item : α} {k : κ}

theorem newest_append :
    (newest stamp (items ++ [item]) : Keyed key) = takeNewer stamp (newest stamp items) item := by
  simp [newest]

/-- Nothing is held under a key that was not read. -/
theorem newest_none : (newest stamp items : Keyed key).get? k = none ↔ ∀ item ∈ items, key item ≠ k := by
  induction items using List.reverseRecOn with
  | nil => simp [newest, Keyed.get?, Keyed.empty]
  | append_singleton items last ih =>
      have put : ((newest stamp items : Keyed key).put last).get? k = none
          ↔ (∀ item ∈ items, key item ≠ k) ∧ key last ≠ k := by
        rw [Keyed.get?_put, ← ih]
        split_ifs with same
        · simp [same]
        · simp [Ne.symm same]
      rw [newest_append, takeNewer]
      simp only [List.mem_append, List.mem_singleton, or_imp, forall_and, forall_eq]
      cases held : (newest stamp items : Keyed key).get? (key last) with
      | none => exact put
      | some other =>
          dsimp only
          split_ifs
          · exact put
          · rw [ih]
            refine ⟨fun none => ⟨none, fun same => ?_⟩, And.left⟩
            rw [same, ih.mpr none] at held
            cases held

/-- What is held was read, and nothing under its key is later. -/
theorem le_newest (found : (newest stamp items : Keyed key).get? k = some item) :
    item ∈ items ∧ key item = k ∧ ∀ other ∈ items, key other = k → stamp other ≤ stamp item := by
  induction items using List.reverseRecOn generalizing item with
  | nil => cases found
  | append_singleton items last ih =>
      rw [newest_append, takeNewer] at found
      have put (before : ∀ held, (newest stamp items : Keyed key).get? (key last) = some held →
            stamp held ≤ stamp last)
          (found : ((newest stamp items : Keyed key).put last).get? k = some item) :
          item ∈ items ++ [last] ∧ key item = k
            ∧ ∀ other ∈ items ++ [last], key other = k → stamp other ≤ stamp item := by
        rw [Keyed.get?_put] at found
        split_ifs at found with same
        · obtain rfl := Option.some_inj.mp found
          refine ⟨by simp, same.symm, fun other member under => ?_⟩
          rcases List.mem_append.mp member with earlier | now
          · cases held : (newest stamp items : Keyed key).get? (key last) with
            | none => exact absurd (under.trans same) (newest_none.mp held other earlier)
            | some first =>
                have most := (ih (same ▸ held)).2.2 other earlier under
                exact le_trans most (before first held)
          · rw [List.mem_singleton.mp now]
        · obtain ⟨read, under, most⟩ := ih found
          refine ⟨List.mem_append_left _ read, under, fun other member same' => ?_⟩
          rcases List.mem_append.mp member with earlier | now
          · exact most other earlier same'
          · rw [List.mem_singleton.mp now] at same'
            exact absurd same'.symm same
      cases held : (newest stamp items : Keyed key).get? (key last) with
      | none =>
          rw [held] at found
          exact put (fun first same => by rw [held] at same; cases same) found
      | some first =>
          rw [held] at found
          dsimp only at found
          split_ifs at found with later
          · refine put (fun first' same => ?_) found
            rw [held] at same
            obtain rfl := Option.some_inj.mp same
            exact later
          · obtain ⟨read, under, most⟩ := ih found
            refine ⟨List.mem_append_left _ read, under, fun other member same => ?_⟩
            rcases List.mem_append.mp member with earlier | now
            · exact most other earlier same
            · obtain rfl := List.mem_singleton.mp now
              rw [same, found] at held
              obtain rfl := Option.some_inj.mp held
              exact le_of_lt (not_le.mp later)

/-- The latest item of a key is held. -/
theorem newest_of_latest (member : item ∈ items)
    (latest : ∀ other ∈ items, key other = key item → other = item ∨ stamp other < stamp item) :
    (newest stamp items : Keyed key).get? (key item) = some item := by
  cases found : (newest stamp items : Keyed key).get? (key item) with
  | none => exact absurd rfl (newest_none.mp found item member)
  | some held =>
      obtain ⟨read, same, most⟩ := le_newest found
      rcases latest held read same with rfl | earlier
      · rfl
      · exact absurd (most item member rfl) (not_le.mpr earlier)

end Newest

end OscmixDesk
