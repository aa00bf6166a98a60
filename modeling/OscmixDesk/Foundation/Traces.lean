/-
**Traces under a law.**

A reader goes over a trace, element by element; what it has read so far says what may come next.
`Lawful` traces are those in which everything was allowed after what came before it:

* `lawful_nil` — the empty trace;
* `Lawful.append` — one more element that is allowed.

`Since` is what happened in a run of steps that can fail and has not been undone:

* `since_now`, `Since.still` — one more element that makes it happen, or does not undo it.

`Unanswered` is what was raised in a trace with no answer behind it:

* `unanswered_nil`, `unanswered_append` — it is read off element by element.

`countdown` is progress: what comes nearer with every element that counts, and with no other goes away, comes to
nothing in a run in which enough of them count.
-/

import Mathlib.Data.List.Basic

namespace OscmixDesk.Traces

variable {σ ε : Type} {next : σ → ε → σ} {allows : σ → ε → Prop} {start : σ}

/-- Everything was allowed after what came before it. -/
def Lawful (next : σ → ε → σ) (allows : σ → ε → Prop) (start : σ) (trace : List ε) : Prop :=
  ∀ before element after, trace = before ++ element :: after → allows (before.foldl next start) element

theorem lawful_nil : Lawful next allows start [] := by
  intro before element after split
  simp at split

theorem Lawful.append {trace : List ε} {element : ε} (lawful : Lawful next allows start trace)
    (allowed : allows (trace.foldl next start) element) : Lawful next allows start (trace ++ [element]) := by
  intro before other after split
  rcases List.eq_nil_or_concat after with rfl | ⟨rest, last, rfl⟩
  · obtain ⟨rfl, same⟩ := List.append_inj' split rfl
    obtain rfl := List.singleton_inj.mp same
    exact allowed
  · refine lawful before other rest ?_
    rw [List.concat_eq_append, ← List.cons_append, ← List.append_assoc] at split
    exact (List.append_inj' split rfl).1

section Since

variable {step : σ → ε → Option σ} {happened : ε → Prop} {undone : σ → ε → Prop} {trace : List ε}

/-- Something happened, and nothing has undone it since. -/
def Since (step : σ → ε → Option σ) (start : σ) (happened : ε → Prop) (undone : σ → ε → Prop)
    (trace : List ε) : Prop :=
  ∃ before element after, trace = before ++ element :: after ∧ happened element ∧
    ∀ between next later s, after = between ++ next :: later →
      (before ++ element :: between).foldlM step start = some s → ¬ undone s next

theorem since_now {element : ε} (now : happened element) :
    Since step start happened undone (trace ++ [element]) :=
  ⟨trace, element, [], rfl, now, fun _ _ _ _ split _ => by simp at split⟩

theorem Since.still {element : ε} {s : σ} (since : Since step start happened undone trace)
    (reached : trace.foldlM step start = some s) (kept : ¬ undone s element) :
    Since step start happened undone (trace ++ [element]) := by
  obtain ⟨before, first, after, rfl, first_happened, undisturbed⟩ := since
  refine ⟨before, first, after ++ [element], by simp, first_happened, ?_⟩
  intro between next later t split at'
  rcases List.eq_nil_or_concat later with rfl | ⟨later, last, rfl⟩
  · obtain ⟨rfl, same⟩ := List.append_inj' split rfl
    obtain rfl := List.singleton_inj.mp same
    obtain rfl := Option.some_inj.mp (reached.symm.trans at')
    exact kept
  · rw [List.concat_eq_append, ← List.cons_append, ← List.append_assoc] at split
    exact undisturbed between next later t (List.append_inj' split rfl).1 at'

end Since

section Unanswered

variable {raised : List ε → ε → Prop} {answers : ε → Prop} {trace : List ε}

/-- Something was raised, and nothing behind it answers. -/
def Unanswered (raised : List ε → ε → Prop) (answers : ε → Prop) (trace : List ε) : Prop :=
  ∃ before element after, trace = before ++ element :: after ∧ raised before element ∧
    ∀ later ∈ after, ¬ answers later

theorem unanswered_nil : ¬ Unanswered raised answers [] := by
  rintro ⟨before, element, after, split, -⟩
  simp at split

theorem unanswered_append {element : ε} : Unanswered raised answers (trace ++ [element])
    ↔ raised trace element ∨ Unanswered raised answers trace ∧ ¬ answers element := by
  constructor
  · rintro ⟨before, first, after, split, now, open'⟩
    rcases List.eq_nil_or_concat after with rfl | ⟨rest, last, rfl⟩
    · obtain ⟨rfl, same⟩ := List.append_inj' split rfl
      obtain rfl := List.singleton_inj.mp same
      exact Or.inl now
    · rw [List.concat_eq_append, ← List.cons_append, ← List.append_assoc] at split
      obtain ⟨rfl, same⟩ := List.append_inj' split rfl
      obtain rfl := List.singleton_inj.mp same
      rw [List.concat_eq_append] at open'
      exact Or.inr ⟨⟨before, first, rest, rfl, now, fun later member =>
        open' later (List.mem_append_left _ member)⟩, open' element (List.mem_append_right _ List.mem_cons_self)⟩
  · rintro (now | ⟨⟨before, first, rest, rfl, now, open'⟩, kept⟩)
    · exact ⟨trace, element, [], rfl, now, fun later member => absurd member List.not_mem_nil⟩
    · refine ⟨before, first, rest ++ [element], by simp, now, fun later member => ?_⟩
      rcases List.mem_append.mp member with member | member
      · exact open' later member
      · obtain rfl := List.mem_singleton.mp member
        exact kept

end Unanswered

section Countdown

variable {step : σ → ε → Option σ} {counts : ε → Bool} {may : ε → Prop} {holds : ℕ → σ → Prop}

theorem countdown (down : ∀ n s e t, may e → counts e = true → holds n s → step s e = some t → holds (n - 1) t)
    (still : ∀ n s e t, may e → counts e = false → holds n s → step s e = some t → holds n t) {trace : List ε}
    (all : ∀ e ∈ trace, may e) {n : ℕ} {s t : σ} (here : holds n s) (ran : trace.foldlM step s = some t) :
    holds (n - trace.countP counts) t := by
  induction trace generalizing n s with
  | nil =>
      obtain rfl : s = t := by simpa using ran
      exact here
  | cons e trace ih =>
      rw [List.foldlM_cons] at ran
      obtain ⟨next, stepped, ran⟩ := Option.bind_eq_some_iff.mp ran
      have first := all e List.mem_cons_self
      have rest := fun other member => all other (List.mem_cons_of_mem _ member)
      cases here' : counts e with
      | true =>
          rw [List.countP_cons_of_pos here', Nat.add_comm, ← Nat.sub_sub]
          exact ih rest (down n s e next first here' here stepped) ran
      | false =>
          rw [List.countP_cons_of_neg (by simp [here'])]
          exact ih rest (still n s e next first here' here stepped) ran

end Countdown

end OscmixDesk.Traces
