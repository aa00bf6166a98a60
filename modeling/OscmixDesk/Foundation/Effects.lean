/-
**Programs that may stop.**

A program over a state returns a value or stops with a problem; what it did to the state before it
stopped stays done (`Prog`). `Ends` says how a run ends: what holds of the value and the state where
it returns, and of the problem and the state where it stops. Each way to put programs together has
one rule, an equivalence, so that a goal about a program is taken apart by rewriting:

* `ends_bind`, `ends_throw`, `ends_catch` — sequence, stop and recovery;
* `Ends.imp` — weaker ends;
* `Keeps` — a relation between the first state and the last one, however a program ends.
-/

import Mathlib.Data.List.Basic

namespace OscmixDesk.Effects

universe u

/-- A program over `σ` that returns an `α` or stops with an `ε`. -/
def Prog (σ ε α : Type) : Type :=
  σ → Except ε α × σ

variable {σ ε α β : Type}

namespace Prog

def ret (value : α) : Prog σ ε α := fun state => (.ok value, state)

/-- Stops. -/
def stop (problem : ε) : Prog σ ε α := fun state => (.error problem, state)

/-- Runs a program, and what follows from its value. -/
def andThen (first : Prog σ ε α) (next : α → Prog σ ε β) : Prog σ ε β := fun state =>
  match first state with
  | (.ok value, after) => next value after
  | (.error problem, after) => (.error problem, after)

/-- Runs a program, and a handler of its problem where it stops. -/
def recover (first : Prog σ ε α) (handler : ε → Prog σ ε α) : Prog σ ε α := fun state =>
  match first state with
  | (.ok value, after) => (.ok value, after)
  | (.error problem, after) => handler problem after

/-- The value of a function of the state, which it may change. -/
def update (change : σ → α × σ) : Prog σ ε α := fun state =>
  ((.ok (change state).1), (change state).2)

end Prog

instance : Monad (Prog σ ε) where
  pure := Prog.ret
  bind := Prog.andThen

instance : MonadExceptOf ε (Prog σ ε) where
  throw := Prog.stop
  tryCatch := Prog.recover

/-- A result without effects, as a program. -/
def lift (result : Except ε α) : Prog σ ε α :=
  match result with
  | .ok value => Prog.ret value
  | .error problem => Prog.stop problem

/-- How a run ends. -/
def Ends (prog : Prog σ ε α) (start : σ) (ok : α → σ → Prop) (stopped : ε → σ → Prop) : Prop :=
  match prog start with
  | (.ok value, state) => ok value state
  | (.error problem, state) => stopped problem state

section Rules

variable {start : σ} {ok : α → σ → Prop} {stopped : ε → σ → Prop}

theorem ends_iff {prog : Prog σ ε α} : Ends prog start ok stopped ↔
    (∀ value state, prog start = (.ok value, state) → ok value state)
      ∧ ∀ problem state, prog start = (.error problem, state) → stopped problem state := by
  unfold Ends
  rcases result : prog start with ⟨value | problem, state⟩ <;> simp

theorem Ends.returned {prog : Prog σ ε α} (ends : Ends prog start ok stopped) {value : α} {state : σ}
    (run : prog start = (.ok value, state)) : ok value state :=
  (ends_iff.mp ends).1 value state run

theorem Ends.raised {prog : Prog σ ε α} (ends : Ends prog start ok stopped) {problem : ε}
    {state : σ} (run : prog start = (.error problem, state)) : stopped problem state :=
  (ends_iff.mp ends).2 problem state run

/-- Weaker ends. -/
theorem Ends.imp {prog : Prog σ ε α} {ok' : α → σ → Prop} {stopped' : ε → σ → Prop}
    (ends : Ends prog start ok stopped) (onReturn : ∀ value state, ok value state → ok' value state)
    (onStop : ∀ problem state, stopped problem state → stopped' problem state) :
    Ends prog start ok' stopped' :=
  ends_iff.mpr ⟨fun value state run => onReturn value state (ends.returned run),
    fun problem state run => onStop problem state (ends.raised run)⟩

theorem Ends.and {prog : Prog σ ε α} {ok' : α → σ → Prop} {stopped' : ε → σ → Prop}
    (ends : Ends prog start ok stopped) (ends' : Ends prog start ok' stopped') :
    Ends prog start (fun value state => ok value state ∧ ok' value state)
      (fun problem state => stopped problem state ∧ stopped' problem state) :=
  ends_iff.mpr ⟨fun _ _ run => ⟨ends.returned run, ends'.returned run⟩,
    fun _ _ run => ⟨ends.raised run, ends'.raised run⟩⟩

@[simp] theorem ends_pure {value : α} :
    Ends (pure value : Prog σ ε α) start ok stopped ↔ ok value start := Iff.rfl

@[simp] theorem ends_throw {problem : ε} :
    Ends (throw problem : Prog σ ε α) start ok stopped ↔ stopped problem start := Iff.rfl

@[simp] theorem ends_update {change : σ → α × σ} :
    Ends (Prog.update change : Prog σ ε α) start ok stopped
      ↔ ok (change start).1 (change start).2 := Iff.rfl

@[simp] theorem ends_bind {first : Prog σ ε β} {next : β → Prog σ ε α} :
    Ends (first >>= next) start ok stopped ↔
      Ends first start (fun value state => Ends (next value) state ok stopped) stopped := by
  show Ends (Prog.andThen first next) start ok stopped ↔ _
  unfold Ends Prog.andThen
  rcases first start with ⟨value | problem, state⟩ <;> rfl

@[simp] theorem ends_catch {first : Prog σ ε α} {handler : ε → Prog σ ε α} :
    Ends (tryCatch first handler) start ok stopped ↔
      Ends first start ok fun problem state => Ends (handler problem) state ok stopped := by
  show Ends (Prog.recover first handler) start ok stopped ↔ _
  unfold Ends Prog.recover
  rcases first start with ⟨value | problem, state⟩ <;> rfl

@[simp] theorem ends_map {change : β → α} {first : Prog σ ε β} :
    Ends (change <$> first) start ok stopped ↔
      Ends first start (fun value => ok (change value)) stopped := by
  show Ends (Prog.andThen first fun value => Prog.ret (change value)) start ok stopped ↔ _
  unfold Ends Prog.andThen
  rcases first start with ⟨value | problem, state⟩ <;> rfl

@[simp] theorem ends_lift {result : Except ε α} :
    Ends (lift result) start ok stopped ↔
      (∀ value, result = .ok value → ok value start)
        ∧ ∀ problem, result = .error problem → stopped problem start := by
  cases result <;> simp [lift, Ends, Prog.ret, Prog.stop]

/-- A run ends in the state it leaves. -/
theorem ends_self (prog : Prog σ ε α) (start : σ) :
    Ends prog start (fun value state => prog start = (.ok value, state))
      fun problem state => prog start = (.error problem, state) :=
  ends_iff.mpr ⟨fun _ _ run => run, fun _ _ run => run⟩

/-- What follows runs from the state of what returned. -/
theorem run_bind {first : Prog σ ε β} {next : β → Prog σ ε α} {value : β} {state : σ}
    (run : first start = (.ok value, state)) : (first >>= next) start = next value state := by
  show Prog.andThen first next start = _
  unfold Prog.andThen
  rw [run]

/-- A run that returns ran its first part to a result, and the rest from there. -/
theorem bind_returned {first : Prog σ ε β} {next : β → Prog σ ε α} {state : σ} {value : α}
    (run : (first >>= next) start = (.ok value, state)) :
    ∃ answer middle, first start = (.ok answer, middle) ∧ next answer middle = (.ok value, state) := by
  rcases before : first start with ⟨problem | answer, middle⟩
  · change Prog.andThen first next start = _ at run
    unfold Prog.andThen at run
    rw [before] at run
    cases run
  · rw [run_bind before] at run
    exact ⟨answer, middle, rfl, run⟩

theorem ends_ite {holds : Prop} [Decidable holds] {yes no : Prog σ ε α} :
    Ends (if holds then yes else no) start ok stopped ↔
      (holds → Ends yes start ok stopped) ∧ (¬ holds → Ends no start ok stopped) := by
  by_cases known : holds <;> simp [known]

end Rules

/-! ### What a program keeps -/

/-- However a program ends, the state it leaves is related to the one it starts in. -/
def Keeps (related : σ → σ → Prop) (prog : Prog σ ε α) : Prop :=
  ∀ start, Ends prog start (fun _ => related start) fun _ => related start

section Keeps

variable {related : σ → σ → Prop}

theorem Keeps.run {prog : Prog σ ε α} (keeps : Keeps related prog) (start : σ) :
    related start (prog start).2 := by
  rcases result : prog start with ⟨problem | value, state⟩
  · exact (keeps start).raised result
  · exact (keeps start).returned result

theorem Keeps.pure (refl : ∀ state, related state state) (value : α) :
    Keeps related (pure value : Prog σ ε α) := fun start => refl start

theorem Keeps.throw (refl : ∀ state, related state state) (problem : ε) :
    Keeps related (throw problem : Prog σ ε α) := fun start => refl start

theorem Keeps.bind (trans : ∀ first second third, related first second → related second third →
    related first third) {first : Prog σ ε β} {next : β → Prog σ ε α} (keeps : Keeps related first)
    (then' : ∀ value, Keeps related (next value)) : Keeps related (first >>= next) := by
  intro start
  rw [ends_bind]
  refine (keeps start).imp (fun value middle known => ?_) fun _ _ known => known
  exact (then' value middle).imp (fun _ stop more => trans start middle stop known more)
    fun _ stop more => trans start middle stop known more

theorem Keeps.catch (trans : ∀ first second third, related first second → related second third →
    related first third) {first : Prog σ ε α} {handler : ε → Prog σ ε α}
    (keeps : Keeps related first) (handles : ∀ problem, Keeps related (handler problem)) :
    Keeps related (tryCatch first handler) := by
  intro start
  rw [ends_catch]
  refine (keeps start).imp (fun _ _ known => known) fun problem middle known => ?_
  exact (handles problem middle).imp (fun _ stop more => trans start middle stop known more)
    fun _ stop more => trans start middle stop known more

theorem Keeps.ite {holds : Prop} [Decidable holds] {yes no : Prog σ ε α} (ifSo : Keeps related yes)
    (otherwise : Keeps related no) : Keeps related (if holds then yes else no) := by
  by_cases known : holds
  · rw [if_pos known]
    exact ifSo
  · rw [if_neg known]
    exact otherwise

end Keeps

end OscmixDesk.Effects
