/-
**Insertion-ordered maps whose values know their key.**

A Python `dict` filled by `d[key(item)] = item` keeps a key at the place where it was first set and
holds the item that was set last. `Keyed key` is that map: a list of items whose keys are pairwise
distinct, so that a lookup has one answer and the list is what iterating over the values gives.

* `Keyed.put` — set an item under its key.
* `Keyed.ofList` — the items put one after another; `items_ofList` says that distinct ones all stay.
-/

import Mathlib.Data.List.Basic
import Mathlib.Data.List.Induction
import Mathlib.Data.List.Nodup

namespace OscmixDesk

universe u v

/-- The first occurrences of a list are distinct. -/
theorem nodup_eraseDups {κ : Type v} [BEq κ] [LawfulBEq κ] (keys : List κ) : keys.eraseDups.Nodup := by
  induction length : keys.length using Nat.strongRecOn generalizing keys with
  | _ n ih =>
      cases keys with
      | nil => exact List.nodup_nil
      | cons key rest =>
          rw [List.eraseDups_cons, List.nodup_cons, List.mem_eraseDups]
          have shorter := List.length_filter_le (fun other => !other == key) rest
          refine ⟨fun again => ?_, ih _ (by rw [List.length_cons] at length; omega) _ rfl⟩
          simpa using (List.mem_filter.mp again).2

variable {α : Type u} {κ : Type v} [DecidableEq κ]

/-- Puts an item in the place of the one with its key, or at the end. -/
def upsert (key : α → κ) (item : α) : List α → List α
  | [] => [item]
  | held :: rest => if key held = key item then item :: rest else held :: upsert key item rest

section Upsert

variable (key : α → κ) (item : α)

theorem keys_upsert (items : List α) :
    (upsert key item items).map key =
      if key item ∈ items.map key then items.map key else items.map key ++ [key item] := by
  induction items with
  | nil => simp [upsert]
  | cons held rest ih =>
      by_cases same : key held = key item
      · simp [upsert, same]
      · have other : key item ≠ key held := fun equal => same equal.symm
        by_cases known : key item ∈ rest.map key
        · simp only [upsert, same, if_false, List.map_cons, ih, List.mem_cons, known,
            or_true, if_true]
        · simp only [upsert, same, if_false, List.map_cons, ih, List.mem_cons, known,
            other, or_self, List.cons_append]

theorem nodup_upsert {items : List α} (distinct : (items.map key).Nodup) :
    ((upsert key item items).map key).Nodup := by
  rw [keys_upsert]
  split
  · exact distinct
  · next fresh => exact List.Nodup.append distinct (List.nodup_singleton _) (by simpa using fresh)

theorem mem_upsert {items : List α} (distinct : (items.map key).Nodup) (held : α) :
    held ∈ upsert key item items ↔ held = item ∨ held ∈ items ∧ key held ≠ key item := by
  induction items with
  | nil => simp [upsert]
  | cons first rest ih =>
      have tail : (rest.map key).Nodup := (List.nodup_cons.mp distinct).2
      have fresh : key first ∉ rest.map key := (List.nodup_cons.mp distinct).1
      by_cases same : key first = key item
      · have apart : ∀ other ∈ rest, key other ≠ key item := fun other member equal =>
          fresh (same.symm ▸ equal ▸ List.mem_map_of_mem member)
        simp only [upsert, same, if_true, List.mem_cons]
        constructor
        · rintro (equal | member)
          · exact Or.inl equal
          · exact Or.inr ⟨Or.inr member, apart held member⟩
        · rintro (equal | ⟨equal | member, different⟩)
          · exact Or.inl equal
          · exact absurd (equal ▸ same) different
          · exact Or.inr member
      · simp only [upsert, same, if_false, List.mem_cons, ih tail]
        constructor
        · rintro (rfl | equal | ⟨member, different⟩)
          · exact Or.inr ⟨Or.inl rfl, same⟩
          · exact Or.inl equal
          · exact Or.inr ⟨Or.inr member, different⟩
        · rintro (equal | ⟨equal | member, different⟩)
          · exact Or.inr (Or.inl equal)
          · exact Or.inl equal
          · exact Or.inr (Or.inr ⟨member, different⟩)

theorem upsert_fresh {items : List α} (fresh : key item ∉ items.map key) :
    upsert key item items = items ++ [item] := by
  induction items with
  | nil => rfl
  | cons held rest ih =>
      rw [List.map_cons, List.mem_cons, not_or] at fresh
      rw [upsert, if_neg (Ne.symm fresh.1), ih fresh.2, List.cons_append]

end Upsert

/-- A map in insertion order: items with pairwise distinct keys. -/
structure Keyed (key : α → κ) where
  items : List α
  distinct : (items.map key).Nodup

namespace Keyed

variable {key : α → κ}

/-- The map without items. -/
def empty : Keyed key where
  items := []
  distinct := List.nodup_nil

/-- Sets an item under its key. -/
def put (held : Keyed key) (item : α) : Keyed key where
  items := upsert key item held.items
  distinct := nodup_upsert key item held.distinct

/-- The item under a key. -/
def get? (held : Keyed key) (k : κ) : Option α :=
  held.items.find? (key · = k)

/-- The keys, in insertion order. -/
def keys (held : Keyed key) : List κ :=
  held.items.map key

/-- The items that a test keeps. -/
def filter (held : Keyed key) (keep : α → Bool) : Keyed key where
  items := held.items.filter keep
  distinct := held.distinct.sublist (List.filter_sublist.map key)

/-- The items put one after another. -/
def ofList (items : List α) : Keyed key :=
  items.foldl put empty

theorem mem_put (held : Keyed key) (item other : α) :
    other ∈ (held.put item).items ↔ other = item ∨ other ∈ held.items ∧ key other ≠ key item :=
  mem_upsert key item held.distinct other

theorem mem_keys_put (held : Keyed key) (item : α) (k : κ) :
    k ∈ (held.put item).keys ↔ k = key item ∨ k ∈ held.keys := by
  show k ∈ (upsert key item held.items).map key ↔ k = key item ∨ k ∈ held.items.map key
  rw [keys_upsert]
  split
  · next known => exact ⟨Or.inr, fun reached => reached.elim (fun equal => equal ▸ known) id⟩
  · rw [List.mem_append, List.mem_singleton, or_comm]

/-- An item is found under its own key and under no other. -/
theorem get?_eq_some (held : Keyed key) (k : κ) (item : α) :
    held.get? k = some item ↔ item ∈ held.items ∧ key item = k := by
  constructor
  · intro found
    exact ⟨List.mem_of_find?_eq_some found, by simpa using List.find?_some found⟩
  · rintro ⟨member, rfl⟩
    have some : (held.get? (key item)).isSome := by
      unfold get?
      rw [List.find?_isSome]
      exact ⟨item, member, by simp⟩
    obtain ⟨other, found⟩ := Option.isSome_iff_exists.mp some
    have same : key other = key item := by simpa using List.find?_some found
    have member' : other ∈ held.items := List.mem_of_find?_eq_some found
    rw [found, List.inj_on_of_nodup_map held.distinct member' member same]

theorem get?_eq_none (held : Keyed key) (k : κ) : held.get? k = none ↔ k ∉ held.keys := by
  unfold get? keys
  simp [List.find?_eq_none]

/-- Setting an item changes the answer for its own key and for no other. -/
theorem get?_put (held : Keyed key) (item : α) (k : κ) :
    (held.put item).get? k = if k = key item then some item else held.get? k := by
  split
  · next same =>
      rw [get?_eq_some, mem_put]
      exact ⟨Or.inl rfl, same.symm⟩
  · next other =>
      apply Option.ext
      intro value
      rw [get?_eq_some, get?_eq_some, mem_put]
      constructor
      · rintro ⟨rfl | ⟨member, -⟩, rfl⟩
        · exact absurd rfl other
        · exact ⟨member, rfl⟩
      · rintro ⟨member, rfl⟩
        exact ⟨Or.inr ⟨member, other⟩, rfl⟩

/-- Only what was put is held. -/
theorem mem_of_mem_ofList {items : List α} {item : α} (held : item ∈ (ofList items : Keyed key).items) :
    item ∈ items := by
  induction items using List.reverseRecOn with
  | nil => cases held
  | append_singleton items last ih =>
      rw [ofList, List.foldl_append, List.foldl_cons, List.foldl_nil, mem_put] at held
      rcases held with rfl | ⟨held, -⟩
      · simp
      · exact List.mem_append_left _ (ih held)

/-- The keys held are those of what was put. -/
theorem mem_keys_ofList (items : List α) (k : κ) :
    k ∈ (ofList items : Keyed key).keys ↔ ∃ item ∈ items, key item = k := by
  induction items using List.reverseRecOn with
  | nil => simp [ofList, empty, keys]
  | append_singleton items last ih =>
      rw [ofList, List.foldl_append, List.foldl_cons, List.foldl_nil, mem_keys_put]
      show k = key last ∨ k ∈ (ofList items : Keyed key).keys ↔ _
      rw [ih]
      constructor
      · rintro (rfl | ⟨item, member, same⟩)
        · exact ⟨last, by simp, rfl⟩
        · exact ⟨item, List.mem_append_left _ member, same⟩
      · rintro ⟨item, member, same⟩
        rcases List.mem_append.mp member with member | member
        · exact Or.inr ⟨item, member, same⟩
        · rw [List.mem_singleton] at member
          exact Or.inl (member ▸ same.symm)

/-- Items with distinct keys are held as they are. -/
theorem items_ofList {items : List α} (distinct : (items.map key).Nodup) :
    (ofList items : Keyed key).items = items := by
  induction items using List.reverseRecOn with
  | nil => rfl
  | append_singleton items last ih =>
      rw [List.map_append, List.map_singleton, List.nodup_append'] at distinct
      obtain ⟨distinct, -, apart⟩ := distinct
      rw [ofList, List.foldl_append, List.foldl_cons, List.foldl_nil]
      show upsert key last (ofList items : Keyed key).items = _
      rw [ih distinct, upsert_fresh]
      intro known
      exact apart known (List.mem_singleton_self _)

end Keyed

end OscmixDesk
