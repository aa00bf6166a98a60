/-
**Rules for programs that stop at the first refusal.**

A parser or a validator is a program in `Except ε`: it returns, or stops with the problem it found.
What a successful run says is read off by inversion: one lemma for each way such a program is put
together, and an invariant rule for the accumulating loop.

* `bind_eq_ok`, `guard_eq_ok` — a sequence succeeds when its parts do.
* `mapM_eq_ok`, `forM_eq_ok` — a loop over a list succeeds when every turn does; `mem_of_mapM` and
  `map_mapM` say where its results come from, `mapM_stricter` and `mapM_filter` compare two loops.
* `foldlM_invariant`, `foldlM_sublist` — what every turn keeps, the loop keeps; what every turn may
  append, the loop appends in order.
-/

import Mathlib.Data.List.Forall2

namespace OscmixDesk.Checks

universe u v w

variable {ε : Type u} {α β : Type v}

theorem bind_eq_ok {first : Except ε α} {next : α → Except ε β} {result : β} :
    (first >>= next) = .ok result ↔ ∃ value, first = .ok value ∧ next value = .ok result := by
  cases first with
  | error problem => simp [bind, Except.bind]
  | ok value => simp [bind, Except.bind]

theorem map_eq_ok {first : Except ε α} {f : α → β} {result : β} :
    (f <$> first) = .ok result ↔ ∃ value, first = .ok value ∧ f value = result := by
  cases first with
  | error problem => simp [Functor.map, Except.map]
  | ok value => simp [Functor.map, Except.map]

@[simp] theorem pure_eq_ok {value result : α} :
    (pure value : Except ε α) = .ok result ↔ value = result := by
  simp [pure, Except.pure]

@[simp] theorem throw_ne_ok {problem : ε} {result : α} :
    ¬ (throw problem : Except ε α) = .ok result := by
  simp [throw, throwThe, MonadExceptOf.throw]

/-- A check in front of a program: it succeeds when the check passes and the rest does. -/
theorem guard_eq_ok {condition : Prop} [Decidable condition] {problem : ε}
    {next : Except ε α} {result : α} :
    (if condition then throw problem else next) = .ok result
      ↔ ¬ condition ∧ next = .ok result := by
  by_cases holds : condition <;> simp [holds]

/-- A loop that only checks succeeds when every turn does. -/
theorem forM_eq_ok {items : List α} {check : α → Except ε PUnit.{v + 1}} :
    items.forM check = .ok ⟨⟩ ↔ ∀ item ∈ items, check item = .ok ⟨⟩ := by
  induction items with
  | nil => simp [pure, Except.pure]
  | cons item rest ih =>
      have unfolded : (item :: rest).forM check = check item >>= fun _ => rest.forM check := rfl
      rw [unfolded, bind_eq_ok]
      constructor
      · rintro ⟨⟨⟩, here, there⟩ other member
        rcases List.mem_cons.mp member with rfl | later
        · exact here
        · exact ih.mp there other later
      · intro all
        exact ⟨⟨⟩, all item List.mem_cons_self,
          ih.mpr fun other later => all other (List.mem_cons_of_mem _ later)⟩

/-- A loop that collects its results succeeds when every turn does, result by result. -/
theorem mapM_eq_ok {items : List α} {f : α → Except ε β} {results : List β} :
    items.mapM f = .ok results
      ↔ List.Forall₂ (fun item result => f item = .ok result) items results := by
  induction items generalizing results with
  | nil => simp [List.mapM_nil, pure, Except.pure, eq_comm]
  | cons item rest ih =>
      rw [List.mapM_cons, bind_eq_ok]
      constructor
      · rintro ⟨value, here, there⟩
        obtain ⟨values, later, same⟩ := bind_eq_ok.mp there
        obtain rfl : value :: values = results := by simpa using same
        exact List.Forall₂.cons here (ih.mp later)
      · intro all
        cases all with
        | cons here there =>
            exact ⟨_, here, bind_eq_ok.mpr ⟨_, ih.mpr there, by simp⟩⟩

/-- A loop none of whose turns can fail succeeds. -/
theorem mapM_total {items : List α} {f : α → Except ε β} {related : α → β → Prop}
    (each : ∀ item ∈ items, ∃ result, f item = .ok result ∧ related item result) :
    ∃ results, items.mapM f = .ok results ∧ List.Forall₂ related items results := by
  induction items with
  | nil => exact ⟨[], rfl, List.Forall₂.nil⟩
  | cons item rest ih =>
      obtain ⟨result, here, holds⟩ := each item List.mem_cons_self
      obtain ⟨results, there, all⟩ := ih fun other member =>
        each other (List.mem_cons_of_mem _ member)
      exact ⟨result :: results, mapM_eq_ok.mpr (List.Forall₂.cons here (mapM_eq_ok.mp there)),
        List.Forall₂.cons holds all⟩

/-- Of two lists related item by item, an item of the second has its partner in the first. -/
theorem exists_left {related : α → β → Prop} {items : List α} {results : List β}
    (pairs : List.Forall₂ related items results) {result : β} (member : result ∈ results) :
    ∃ item ∈ items, related item result := by
  induction pairs with
  | nil => cases member
  | cons here there ih =>
      rcases List.mem_cons.mp member with rfl | later
      · exact ⟨_, List.mem_cons_self, here⟩
      · obtain ⟨item, known, holds⟩ := ih later
        exact ⟨item, List.mem_cons_of_mem _ known, holds⟩

/-- And an item of the first has its partner in the second. -/
theorem exists_right {related : α → β → Prop} {items : List α} {results : List β}
    (pairs : List.Forall₂ related items results) {item : α} (member : item ∈ items) :
    ∃ result ∈ results, related item result := by
  induction pairs with
  | nil => cases member
  | cons here there ih =>
      rcases List.mem_cons.mp member with rfl | later
      · exact ⟨_, List.mem_cons_self, here⟩
      · obtain ⟨result, known, holds⟩ := ih later
        exact ⟨result, List.mem_cons_of_mem _ known, holds⟩

/-- What every related pair has in common, the lists have in common in order. -/
theorem map_eq_map {γ : Type w} {related : α → β → Prop} {items : List α} {results : List β}
    {before : α → γ} {after : β → γ} (common : ∀ item result, related item result →
      after result = before item) (pairs : List.Forall₂ related items results) :
    results.map after = items.map before := by
  induction pairs with
  | nil => rfl
  | cons here there ih => rw [List.map_cons, List.map_cons, ih, common _ _ here]

/-- Every result was read from an item. -/
theorem mem_of_mapM {items : List α} {f : α → Except ε β} {results : List β}
    (done : items.mapM f = .ok results) {result : β} (member : result ∈ results) :
    ∃ item ∈ items, f item = .ok result :=
  exists_left (mapM_eq_ok.mp done) member

/-- What a turn copies from its item to its result, the loop copies in order. -/
theorem map_mapM {γ : Type w} {items : List α} {f : α → Except ε β} {results : List β}
    {before : α → γ} {after : β → γ}
    (copied : ∀ item result, f item = .ok result → after result = before item)
    (done : items.mapM f = .ok results) : results.map after = items.map before :=
  map_eq_map copied (mapM_eq_ok.mp done)

/-- A loop whose turns are another's with a check more succeeds when the other does and all items pass. -/
theorem mapM_stricter {items : List α} {f g : α → Except ε β} {passes : α → Prop}
    (stricter : ∀ item ∈ items, ∀ result, f item = .ok result ↔ g item = .ok result ∧ passes item)
    {results : List β} :
    items.mapM f = .ok results ↔ items.mapM g = .ok results ∧ ∀ item ∈ items, passes item := by
  induction items generalizing results with
  | nil => simp
  | cons item rest ih =>
      have later := @ih fun other member => stricter other (List.mem_cons_of_mem _ member)
      have here := stricter item List.mem_cons_self
      simp only [List.mapM_cons, bind_eq_ok, here, later, pure_eq_ok, List.forall_mem_cons]
      constructor
      · rintro ⟨value, ⟨first, passed⟩, values, ⟨others, all⟩, same⟩
        exact ⟨⟨value, first, values, others, same⟩, passed, all⟩
      · rintro ⟨⟨value, first, values, others, same⟩, passed, all⟩
        exact ⟨value, ⟨first, passed⟩, values, ⟨others, all⟩, same⟩

/-- Items whose turns return something that does not count may be left out of a loop. -/
theorem mapM_filter {γ : Type w} {items : List α} {f : α → Except ε β} {keep : α → Bool} {collect : List β → γ}
    (same : ∀ result results others, collect results = collect others →
      collect (result :: results) = collect (result :: others))
    (nothing : ∀ item ∈ items, keep item = false →
      ∃ result, f item = .ok result ∧ ∀ results, collect (result :: results) = collect results) :
    ((items.filter keep).mapM f).map collect = (items.mapM f).map collect := by
  induction items with
  | nil => rfl
  | cons item rest ih =>
      have later := ih fun other member => nothing other (List.mem_cons_of_mem _ member)
      cases kept : keep item with
      | true =>
          rw [List.filter_cons_of_pos kept, List.mapM_cons, List.mapM_cons]
          cases f item with
          | error problem => rfl
          | ok result =>
              cases others : rest.mapM f with
              | error problem =>
                  cases filtered : (rest.filter keep).mapM f with
                  | error also =>
                      rw [others, filtered] at later
                      exact later
                  | ok results =>
                      rw [others, filtered] at later
                      cases later
              | ok results =>
                  cases filtered : (rest.filter keep).mapM f with
                  | error also =>
                      rw [others, filtered] at later
                      cases later
                  | ok values =>
                      rw [others, filtered] at later
                      exact congrArg Except.ok (same result _ _ (Except.ok.inj later))
      | false =>
          obtain ⟨result, done, neutral⟩ := nothing item List.mem_cons_self kept
          rw [List.filter_cons_of_neg (by simp [kept]), List.mapM_cons, done, later]
          cases rest.mapM f with
          | error problem => rfl
          | ok results => exact congrArg Except.ok (neutral results).symm

/-- What every turn of an accumulating loop keeps, the loop keeps. -/
theorem foldlM_invariant {step : β → α → Except ε β} {items : List α} {start result : β}
    (holds : β → Prop) (kept : ∀ state item next, item ∈ items → holds state →
      step state item = .ok next → holds next)
    (initial : holds start) (done : items.foldlM step start = .ok result) : holds result := by
  induction items generalizing start with
  | nil =>
      have same : start = result := by simpa using done
      exact same ▸ initial
  | cons item rest ih =>
      rw [List.foldlM_cons, bind_eq_ok] at done
      obtain ⟨next, here, there⟩ := done
      exact ih (fun state other after member => kept state other after
        (List.mem_cons_of_mem _ member)) (kept start item next List.mem_cons_self initial here) there

/-- A part of the state that every turn keeps or extends by its item is extended by a selection of
the items, in their order. -/
theorem foldlM_sublist {step : β → α → Except ε β} {items : List α} {start result : β}
    (part : β → List α)
    (grows : ∀ state item next, step state item = .ok next →
      part next = part state ∨ part next = part state ++ [item])
    (done : items.foldlM step start = .ok result) :
    ∃ taken, taken.Sublist items ∧ part result = part start ++ taken := by
  induction items generalizing start with
  | nil =>
      have same : start = result := by simpa using done
      exact ⟨[], List.nil_sublist _, by simp [same]⟩
  | cons item rest ih =>
      rw [List.foldlM_cons, bind_eq_ok] at done
      obtain ⟨next, here, there⟩ := done
      obtain ⟨taken, sublist, grown⟩ := ih there
      rcases grows start item next here with same | appended
      · exact ⟨taken, sublist.cons item, by rw [grown, same]⟩
      · exact ⟨item :: taken, sublist.cons_cons item, by rw [grown, appended]; simp⟩

end OscmixDesk.Checks
