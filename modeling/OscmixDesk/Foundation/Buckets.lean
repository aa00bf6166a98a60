/-
**Stable sorting by a key with finitely many values.**

Python's `sorted(items, key=…)` is stable. Where the key ranges over a short list of values in
increasing order, sorting is concatenating the buckets of the values (`bucketSort`), which
evaluates structurally and whose properties are those of `List.filter`.

* `perm_bucketSort` — sorting permutes, when every key is a value of the list.
* `filter_bucketSort` — it commutes with filtering, so it is stable on every key.
* `pairwise_bucketSort` — the result is ordered by the position of the keys.
-/

import Mathlib.Data.List.Nodup
import Mathlib.Data.List.Perm.Basic

namespace OscmixDesk

universe u v

variable {α : Type u} {κ : Type v} [DecidableEq κ]

/-- The items, bucket after bucket in the given order of keys. -/
def bucketSort (order : List κ) (key : α → κ) (items : List α) : List α :=
  order.flatMap fun k => items.filter (key · = k)

section Facts

variable (order : List κ) (key : α → κ) (items : List α)

theorem mem_bucketSort (complete : ∀ item ∈ items, key item ∈ order) (item : α) :
    item ∈ bucketSort order key items ↔ item ∈ items := by
  unfold bucketSort
  rw [List.mem_flatMap]
  constructor
  · rintro ⟨k, -, member⟩
    exact (List.mem_filter.mp member).1
  · intro member
    exact ⟨key item, complete item member, List.mem_filter.mpr ⟨member, by simp⟩⟩

/-- Sorting commutes with filtering. -/
theorem filter_bucketSort (keep : α → Bool) :
    (bucketSort order key items).filter keep = bucketSort order key (items.filter keep) := by
  unfold bucketSort
  rw [List.filter_flatMap]
  congr 1
  funext k
  rw [List.filter_filter, List.filter_filter]
  congr 1
  funext item
  exact Bool.and_comm _ _

theorem bucketSort_nil : bucketSort order key ([] : List α) = [] := by
  simp [bucketSort]

/-- A key outside the order contributes nothing, a bucket of a list is the bucket of its parts. -/
theorem bucketSort_cons (k : κ) : bucketSort (k :: order) key items =
    items.filter (key · = k) ++ bucketSort order key items :=
  List.flatMap_cons ..

/-- A filter by one of two exclusive tests, as the two filters side by side. -/
theorem filter_or_perm (first second : α → Bool)
    (exclusive : ∀ item ∈ items, first item → second item = false) :
    (items.filter fun item => first item || second item).Perm
      (items.filter first ++ items.filter second) := by
  have parts := List.filter_append_perm first (items.filter fun item => first item || second item)
  rw [List.filter_filter, List.filter_filter] at parts
  have left : (items.filter fun item => first item && (first item || second item))
      = items.filter first :=
    List.filter_congr fun item _ => by cases first item <;> simp
  have right : (items.filter fun item => !first item && (first item || second item))
      = items.filter second := by
    refine List.filter_congr fun item member => ?_
    cases chosen : first item
    · simp
    · simp [exclusive item member chosen]
  rw [left, right] at parts
  exact parts.symm

theorem bucketSort_perm_filter (distinct : order.Nodup) :
    (bucketSort order key items).Perm (items.filter fun item => key item ∈ order) := by
  induction order with
  | nil => simp [bucketSort]
  | cons k rest ih =>
      have fresh : k ∉ rest := (List.nodup_cons.mp distinct).1
      have split := filter_or_perm items (fun item => decide (key item = k))
        (fun item => decide (key item ∈ rest)) fun item _ here => by
          have same : key item = k := by simpa using here
          simpa [same] using fresh
      rw [bucketSort_cons]
      refine ((ih (List.nodup_cons.mp distinct).2).append_left _).trans (split.symm.trans ?_)
      simp

/-- Sorting permutes a list whose keys are all in the order. -/
theorem perm_bucketSort (distinct : order.Nodup) (complete : ∀ item ∈ items, key item ∈ order) :
    (bucketSort order key items).Perm items := by
  have all : items.filter (fun item => key item ∈ order) = items :=
    List.filter_eq_self.mpr fun item member => by simpa using complete item member
  simpa only [all] using bucketSort_perm_filter order key items distinct

/-- What holds of any two items of one key, in their order, can be checked bucket by bucket. -/
theorem pairwise_same_key (related : α → α → Prop) :
    (items.Pairwise fun first second => key first = key second → related first second)
      ↔ ∀ k, (items.filter (key · = k)).Pairwise related := by
  induction items with
  | nil => simp
  | cons item rest ih =>
      rw [List.pairwise_cons, ih]
      constructor
      · rintro ⟨here, there⟩ k
        by_cases own : key item = k
        · rw [List.filter_cons_of_pos (by simpa using own), List.pairwise_cons]
          refine ⟨fun other member => ?_, there k⟩
          obtain ⟨known, same⟩ := List.mem_filter.mp member
          exact here other known (own.trans (by simpa using same : key other = k).symm)
        · rw [List.filter_cons_of_neg (by simpa using own)]
          exact there k
      · intro all
        constructor
        · intro other known same
          have mine := all (key item)
          rw [List.filter_cons_of_pos (by simp), List.pairwise_cons] at mine
          exact mine.1 other (List.mem_filter.mpr ⟨known, by simp [same]⟩)
        · intro k
          have mine := all k
          by_cases own : key item = k
          · rw [List.filter_cons_of_pos (by simpa using own)] at mine
            exact (List.pairwise_cons.mp mine).2
          · rwa [List.filter_cons_of_neg (by simpa using own)] at mine

/-- The result is ordered as its keys stand in the order. -/
theorem pairwise_bucketSort (before : κ → κ → Prop) (sorted : order.Pairwise before)
    (refl : ∀ k, before k k) :
    (bucketSort order key items).Pairwise fun first second => before (key first) (key second) := by
  unfold bucketSort
  rw [List.flatMap_def, List.pairwise_flatten]
  constructor
  · rintro _ bucket
    obtain ⟨k, -, rfl⟩ := List.mem_map.mp bucket
    refine List.pairwise_of_forall_mem_list fun first member second member' => ?_
    have same : key first = k := by simpa using (List.mem_filter.mp member).2
    have same' : key second = k := by simpa using (List.mem_filter.mp member').2
    rw [same, same']
    exact refl k
  · rw [List.pairwise_map]
    refine sorted.imp fun {k k'} ahead first member second member' => ?_
    have same : key first = k := by simpa using (List.mem_filter.mp member).2
    have same' : key second = k' := by simpa using (List.mem_filter.mp member').2
    rw [same, same']
    exact ahead

end Facts

/-- Sorting twice is sorting once. -/
theorem bucketSort_idem {order : List κ} {key : α → κ} (distinct : order.Nodup) (items : List α) :
    bucketSort order key (bucketSort order key items) = bucketSort order key items := by
  have bucket {k : κ} (member : k ∈ order) :
      (bucketSort order key items).filter (key · = k) = items.filter (key · = k) := by
    have other {j : κ} (apart : j ≠ k) : (items.filter (key · = k)).filter (key · = j) = [] := by
      refine List.filter_eq_nil_iff.mpr fun item member' => ?_
      have same : key item = k := by simpa using (List.mem_filter.mp member').2
      simpa [same] using Ne.symm apart
    obtain ⟨before, after, rfl⟩ := List.append_of_mem member
    have parts := List.nodup_middle.mp distinct
    have fresh := (List.nodup_cons.mp parts).1
    have outside {ks : List κ} (none : k ∉ ks) :
        ks.flatMap (fun j => (items.filter (key · = k)).filter (key · = j)) = [] :=
      List.flatMap_eq_nil_iff.mpr fun j member' => other fun same => none (same ▸ member')
    rw [filter_bucketSort]
    unfold bucketSort
    rw [List.flatMap_append, List.flatMap_cons, outside fun here => fresh (List.mem_append_left _ here),
      outside fun here => fresh (List.mem_append_right _ here), List.nil_append, List.append_nil,
      List.filter_filter]
    exact List.filter_congr fun item _ => Bool.and_self _
  unfold bucketSort
  rw [List.flatMap_def, List.flatMap_def]
  congr 1
  exact List.map_congr_left fun k member => bucket member

theorem bucketSort_map {order : List κ} {key : α → κ} {key' : β → κ} {f : α → β}
    (same : ∀ item, key' (f item) = key item) (items : List α) :
    bucketSort order key' (items.map f) = (bucketSort order key items).map f := by
  unfold bucketSort
  rw [List.map_flatMap]
  congr 1
  funext k
  rw [List.filter_map]
  congr 2
  funext item
  rw [Function.comp_apply, same]

end OscmixDesk
