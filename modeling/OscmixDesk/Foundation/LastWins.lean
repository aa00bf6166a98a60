/-
**Folds in which the last item of each key wins.**

A state is updated item by item, and an item touches the part of the state under its own key only. Where an
item covers what an earlier one of its key did, a part depends on the last item of its key and on nothing else.

* `LastWins` — the two laws of such an update, for the part of the state under one key;
* `LastWins.foldl` — the part after any items is the part after the last item of its key.
-/

import Mathlib.Data.List.Induction
import OscmixDesk.Foundation.Keyed

namespace OscmixDesk

section LastWins

variable {α κ σ β : Type} [DecidableEq κ] {key : α → κ} {k : κ} {items : List α} {item : α}

/-- The last item of a key. -/
def lastOf (key : α → κ) (k : κ) (items : List α) : Option α :=
  items.reverse.find? (key · = k)

theorem lastOf_append_same (same : key item = k) : lastOf key k (items ++ [item]) = some item := by
  simp [lastOf, same]

theorem lastOf_append_other (other : key item ≠ k) :
    lastOf key k (items ++ [item]) = lastOf key k items := by
  simp [lastOf, other]

theorem lastOf_append (others : List α) :
    lastOf key k (items ++ others) = (lastOf key k others).or (lastOf key k items) := by
  rw [lastOf, List.reverse_append, List.find?_append]
  rfl

/-- The last item of a key has that key. -/
theorem key_lastOf (found : lastOf key k items = some item) : key item = k := by
  have hit := @List.find?_some _ _ _ _ found
  exact of_decide_eq_true hit

theorem mem_of_lastOf (found : lastOf key k items = some item) : item ∈ items :=
  List.mem_reverse.mp (List.mem_of_find?_eq_some found)

/-- Items of one key in one order have one last item of it. -/
theorem lastOf_congr {others : List α} (same : items.filter (key · = k) = others.filter (key · = k)) :
    lastOf key k items = lastOf key k others := by
  unfold lastOf
  rw [← List.getLast?_filter, same, List.getLast?_filter]

/-- Items that are dropped by their keys do not change the last of a key that is not. -/
theorem lastOf_filter {key : α → κ} {k : κ} {keep : α → Bool} {items : List α}
    (kept : ∀ item ∈ items, key item = k → keep item = true) :
    lastOf key k (items.filter keep) = lastOf key k items := by
  apply lastOf_congr
  rw [List.filter_filter]
  refine List.filter_congr fun item member => ?_
  by_cases same : key item = k
  · simp [same, kept item member same]
  · simp [same]

theorem lastOf_map {key : α → κ} {key' : β → κ} {f : α → β} {k : κ} {items : List α}
    (same : ∀ item, key' (f item) = key item) :
    lastOf key' k (items.map f) = (lastOf key k items).map f := by
  unfold lastOf
  rw [← List.map_reverse, List.find?_map]
  congr 2
  funext item
  rw [Function.comp_apply, same]

/-- An item with a later one of its key is not the last of any. -/
theorem lastOf_drop {before after : List α} {later : α} (follows : later ∈ after) (same : key later = key item) :
    lastOf key k (before ++ item :: after) = lastOf key k (before ++ after) := by
  have found : key item = k → (after.reverse.find? (key · = k)).isSome := by
    intro hit
    rw [List.find?_isSome]
    exact ⟨later, List.mem_reverse.mpr follows, by simp [same, hit]⟩
  unfold lastOf
  rw [List.reverse_append, List.reverse_append, List.reverse_cons, List.find?_append, List.find?_append,
    List.find?_append]
  by_cases hit : key item = k
  · obtain ⟨last, found⟩ := Option.isSome_iff_exists.mp (found hit)
    rw [found]
    rfl
  · simp [hit]

/-- An item changes what is seen under its own key only, and covers what an earlier item of the key did. -/
structure LastWins (step : σ → α → σ) (key : α → κ) (k : κ) (view : σ → β) (entry : β → α → β) : Prop where
  hit : ∀ state item, key item = k → view (step state item) = entry (view state) item
  miss : ∀ state item, key item ≠ k → view (step state item) = view state
  covers : ∀ seen first second, key first = k → key second = k →
    entry (entry seen first) second = entry seen second

/-- What is seen under a key is what its last item leaves there. -/
theorem LastWins.foldl {step : σ → α → σ} {view : σ → β} {entry : β → α → β}
    (wins : LastWins step key k view entry) (state : σ) :
    view (items.foldl step state) = (lastOf key k items).toList.foldl entry (view state) := by
  induction items using List.reverseRecOn with
  | nil => rfl
  | append_singleton items last ih =>
      rw [List.foldl_append, List.foldl_cons, List.foldl_nil]
      by_cases same : key last = k
      · rw [wins.hit _ _ same, ih, lastOf_append_same same]
        -- what an earlier item of the key left is covered
        cases earlier : lastOf key k items with
        | none => rfl
        | some first => exact wins.covers _ _ _ (key_lastOf earlier) same
      · rw [wins.miss _ _ same, ih, lastOf_append_other same]

/-- Two lists of items with the same last item of a key leave the same there. -/
theorem LastWins.foldl_congr {step : σ → α → σ} {view : σ → β} {entry : β → α → β} {others : List α}
    (wins : LastWins step key k view entry) (state : σ) (same : lastOf key k items = lastOf key k others) :
    view (items.foldl step state) = view (others.foldl step state) := by
  rw [wins.foldl, wins.foldl, same]

/-- The last item of a key, alone. -/
theorem lastOf_lastOf : lastOf key k (lastOf key k items).toList = lastOf key k items := by
  cases found : lastOf key k items with
  | none => rfl
  | some last => exact @lastOf_append_same _ _ _ key k [] last (key_lastOf found)

/-- Items put one after another: under a key the last one, or what was held before. -/
theorem get?_foldl_put (held : Keyed key) (k : κ) :
    (items.foldl Keyed.put held).get? k = (lastOf key k items).or (held.get? k) := by
  have wins : LastWins Keyed.put key k (fun held : Keyed key => held.get? k) (fun _ item => some item) := by
    refine ⟨?_, ?_, fun _ _ _ _ _ => rfl⟩
    · rintro held item rfl
      rw [Keyed.get?_put, if_pos rfl]
    · intro held item other
      rw [Keyed.get?_put, if_neg (Ne.symm other)]
  have last := @LastWins.foldl _ _ _ _ _ _ _ items _ _ _ wins held
  rw [last]
  cases lastOf key k items <;> rfl

/-- Of items with distinct keys each is the last of its key. -/
theorem lastOf_of_distinct (distinct : (items.map key).Nodup) (member : item ∈ items) :
    lastOf key (key item) items = some item := by
  unfold lastOf
  cases found : items.reverse.find? (key · = key item) with
  | none =>
      have none := List.find?_eq_none.mp found item (List.mem_reverse.mpr member)
      simp at none
  | some other =>
      have hit := List.find?_some found
      have same := of_decide_eq_true hit
      have among := List.mem_reverse.mp (List.mem_of_find?_eq_some found)
      rw [List.inj_on_of_nodup_map distinct among member same]

theorem lastOf_eq_none : lastOf key k items = none ↔ ∀ item ∈ items, key item ≠ k := by
  simp [lastOf, List.find?_eq_none]

/-- Items of which some become others: the last of a key becomes the last of the other key. -/
theorem lastOf_filterMap {κ' : Type} [DecidableEq κ'] {key' : β → κ'} {k' : κ'} {f : α → Option β}
    (hit : ∀ item, key item = k → ∃ made, f item = some made ∧ key' made = k')
    (miss : ∀ item made, key item ≠ k → f item = some made → key' made ≠ k') :
    lastOf key' k' (items.filterMap f) = (lastOf key k items).bind f := by
  induction items using List.reverseRecOn with
  | nil => rfl
  | append_singleton items last ih =>
      rw [List.filterMap_append]
      by_cases own : key last = k
      · obtain ⟨made, found, same⟩ := hit last own
        rw [lastOf_append_same own, List.filterMap_cons_some found, List.filterMap_nil, lastOf_append_same same]
        exact found.symm
      · rw [lastOf_append_other own, ← ih]
        cases found : f last with
        | none => rw [List.filterMap_cons_none found, List.filterMap_nil, List.append_nil]
        | some made =>
            rw [List.filterMap_cons_some found, List.filterMap_nil, lastOf_append_other (miss last made own found)]

/-- Of items with distinct keys there is one of a key at most. -/
theorem filter_of_distinct (distinct : (items.map key).Nodup) :
    items.filter (key · = k) = (lastOf key k items).toList := by
  induction items using List.reverseRecOn with
  | nil => rfl
  | append_singleton items last ih =>
      rw [List.map_append, List.nodup_append] at distinct
      obtain ⟨before, -, apart⟩ := distinct
      rw [List.filter_append, ih before]
      by_cases own : key last = k
      · rw [lastOf_append_same own]
        have none : lastOf key k items = none := by
          refine lastOf_eq_none.mpr fun item member same => ?_
          exact apart _ (List.mem_map_of_mem member) _ (List.mem_singleton_self _) (same.trans own.symm)
        rw [none]
        simp [own]
      · rw [lastOf_append_other own]
        simp [own]

/-- The order of items with distinct keys says nothing about the last of a key. -/
theorem lastOf_perm {others : List α} (distinct : (items.map key).Nodup) (perm : items.Perm others) :
    lastOf key k items = lastOf key k others := by
  have same := perm.filter (key · = k)
  rw [filter_of_distinct distinct,
    filter_of_distinct ((perm.map key).nodup_iff.mp distinct)] at same
  cases first : lastOf key k items with
  | none =>
      rw [first] at same
      exact (Option.toList_eq_nil_iff.mp (List.nil_perm.mp same)).symm
  | some item =>
      rw [first] at same
      have one := List.perm_singleton.mp same.symm
      exact (Option.toList_eq_singleton_iff.mp one).symm

end LastWins

end OscmixDesk
