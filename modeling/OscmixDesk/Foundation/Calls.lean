/-
**Programs that call their environment, side by side.**

A program is a value, or a call with what follows from its answer (`Calls`). Processes run such programs in one
world, one call at a time and in any order; a process may start late, may die between two calls, and the whole machine
may stop at once (`Concurrent`). Each process runs one program.

A program is `Safe` for a process when each of its calls, made at any later time, keeps the world valid and does to it
only what the other processes tolerate:

* `Safe.ask`, `Safe.value`, `Safe.bind`, `Safe.mono`, `Safe.imp` — the rules of the programs;
* `Concurrent.Sound` — what the rules of a system must say of its calls, of a death and of a stop;
* `Sound.reached` — in every state that is reached the world is valid and every process is safe from there on;
* `Good.ends` — what a process ends with is what its program promised.
-/

import Mathlib.Logic.Function.Basic
import Mathlib.Logic.Relation

namespace OscmixDesk

universe u

/-- A program that asks its environment: each request has its own kind of answer. -/
inductive Calls (ρ : Type) (answer : ρ → Type) (α : Type)
  | done (value : α)
  | call (request : ρ) (next : answer request → Calls ρ answer α)

namespace Calls

variable {ρ : Type} {answer : ρ → Type} {α β : Type}

/-- One program behind another. -/
def andThen (first : Calls ρ answer α) (next : α → Calls ρ answer β) : Calls ρ answer β :=
  match first with
  | done value => next value
  | call request rest => call request fun given => (rest given).andThen next

instance : Monad (Calls ρ answer) where
  pure := done
  bind := andThen

/-- One call, for its answer. -/
def ask (request : ρ) : Calls ρ answer (answer request) :=
  call request done

@[simp] theorem pure_bind (value : α) (next : α → Calls ρ answer β) :
    ((pure value : Calls ρ answer α) >>= next) = next value := rfl

end Calls

/-- A world in which processes run programs: the program of each, what a call does for a process, and what becomes of
the world when a process dies or the machine stops. -/
structure Concurrent (ι ρ : Type) (answer : ρ → Type) (α σ : Type) where
  program : ι → Calls ρ answer α
  law : ι → (request : ρ) → σ → answer request → σ → Prop
  dies : ι → σ → σ → Prop
  stops : σ → σ → Prop

namespace Concurrent

variable {ι ρ : Type} {answer : ρ → Type} {α β σ : Type}

/-- How far a process is. -/
inductive Run (ρ : Type) (answer : ρ → Type) (α : Type)
  | waiting
  | running (rest : Calls ρ answer α)
  | gone

/-- The world, and how far every process is. -/
structure State (ι ρ : Type) (answer : ρ → Type) (α σ : Type) where
  world : σ
  runs : ι → Run ρ answer α

/-- What the stop of the machine leaves of a process. -/
def Run.stopped : Run ρ answer α → Run ρ answer α
  | .waiting => .waiting
  | _ => .gone

/-- One event: a start, a call, a death, or the stop of the machine. -/
inductive Step [DecidableEq ι] (system : Concurrent ι ρ answer α σ) :
    State ι ρ answer α σ → State ι ρ answer α σ → Prop
  | start {world : σ} {runs : ι → Run ρ answer α} (i : ι) (idle : runs i = .waiting) :
      Step system ⟨world, runs⟩ ⟨world, Function.update runs i (.running (system.program i))⟩
  | call {world after : σ} {runs : ι → Run ρ answer α} (i : ι) (request : ρ)
      (next : answer request → Calls ρ answer α) (given : answer request)
      (turn : runs i = .running (.call request next)) (done : system.law i request world given after) :
      Step system ⟨world, runs⟩ ⟨after, Function.update runs i (.running (next given))⟩
  | die {world after : σ} {runs : ι → Run ρ answer α} (i : ι) (rest : Calls ρ answer α)
      (alive : runs i = .running rest) (lost : system.dies i world after) :
      Step system ⟨world, runs⟩ ⟨after, Function.update runs i .gone⟩
  | stop {world after : σ} {runs : ι → Run ρ answer α} (lost : system.stops world after) :
      Step system ⟨world, runs⟩ ⟨after, fun i => (runs i).stopped⟩

/-- The states reached from a world in which nothing runs yet. -/
def Reached [DecidableEq ι] (system : Concurrent ι ρ answer α σ) (start : σ) (now : State ι ρ answer α σ) : Prop :=
  Relation.ReflTransGen system.Step ⟨start, fun _ => .waiting⟩ now

section Came

variable [DecidableEq ι] {system : Concurrent ι ρ answer α σ} {start world after : σ} {i : ι}

/-- A world that is reached, where a process has a program left. -/
def Came (system : Concurrent ι ρ answer α σ) (start : σ) (i : ι) (rest : Calls ρ answer α) (world : σ) : Prop :=
  ∃ runs, system.Reached start ⟨world, runs⟩ ∧ runs i = .running rest

theorem came_start (start : σ) (i : ι) : system.Came start i (system.program i) start :=
  ⟨_, Relation.ReflTransGen.refl.tail (.start i rfl), Function.update_self ..⟩

theorem Came.call {request : ρ} {next : answer request → Calls ρ answer α}
    (came : system.Came start i (.call request next) world) (given : answer request)
    (done : system.law i request world given after) : system.Came start i (next given) after := by
  obtain ⟨runs, reached, turn⟩ := came
  exact ⟨_, reached.tail (.call i request next given turn done), Function.update_self ..⟩

end Came

/-- What is true of the world at all times, what is true of it for a process that has not started, and what a process
sees the others do to it. -/
structure Rules (ι σ : Type) where
  valid : σ → Prop
  idle : ι → σ → Prop
  others : ι → σ → σ → Prop
  still : ∀ {i world after}, others i world after → idle i world → idle i after
  refl : ∀ i world, others i world world
  trans : ∀ {i first second third}, others i first second → others i second third → others i first third

section Safe

variable (rules : Rules ι σ) (law : (request : ρ) → σ → answer request → σ → Prop) (i : ι)

/-- A program that is safe for a process from a world on. Its calls may come at any later time. -/
inductive Safe (post : α → σ → Prop) : Calls ρ answer α → σ → Prop
  | done {value : α} {world : σ}
      (ends : ∀ now, rules.valid now → rules.others i world now → post value now) : Safe post (.done value) world
  | call {request : ρ} {next : answer request → Calls ρ answer α} {world : σ}
      (kept : ∀ now given after, rules.valid now → rules.others i world now → law request now given after →
        rules.valid after ∧ ∀ j, j ≠ i → rules.others j now after)
      (resumes : ∀ now given after, rules.valid now → rules.others i world now → law request now given after →
        Safe post (next given) after) : Safe post (.call request next) world

variable {rules law i} {post : α → σ → Prop}

/-- A call, and what follows from each answer it may get. -/
theorem Safe.ask {request : ρ} {next : answer request → Calls ρ answer α} {world : σ}
    (each : ∀ now given after, rules.valid now → rules.others i world now → law request now given after →
      (rules.valid after ∧ ∀ j, j ≠ i → rules.others j now after) ∧ Safe rules law i post (next given) after) :
    Safe rules law i post (.call request next) world :=
  .call (fun now given after valid seen done => (each now given after valid seen done).1)
    fun now given after valid seen done => (each now given after valid seen done).2

/-- A value whose promise the others keep. -/
theorem Safe.value {value : α} {world : σ} (holds : post value world)
    (stable : ∀ now, rules.others i world now → post value world → post value now) :
    Safe rules law i post (.done value) world :=
  .done fun now _ seen => stable now seen holds

/-- A program that is safe stays so while the others run. -/
theorem Safe.mono {program : Calls ρ answer α} {world later : σ} (safe : Safe rules law i post program world)
    (passed : rules.others i world later) : Safe rules law i post program later := by
  cases safe with
  | done ends => exact .done fun now valid seen => ends now valid (rules.trans passed seen)
  | call kept resumes =>
      exact .call (fun now given after valid seen => kept now given after valid (rules.trans passed seen))
        fun now given after valid seen => resumes now given after valid (rules.trans passed seen)

/-- A weaker promise. -/
theorem Safe.imp {program : Calls ρ answer α} {world : σ} {weaker : α → σ → Prop}
    (safe : Safe rules law i post program world)
    (implies : ∀ value now, rules.valid now → post value now → weaker value now) :
    Safe rules law i weaker program world := by
  induction safe with
  | done ends => exact .done fun now valid seen => implies _ now valid (ends now valid seen)
  | call kept _ ih => exact .call kept ih

/-- A program behind another that is safe. -/
theorem Safe.bind {program : Calls ρ answer β} {next : β → Calls ρ answer α} {world : σ} {middle : β → σ → Prop}
    (safe : Safe rules law i middle program world) (valid : rules.valid world)
    (resumes : ∀ value now, rules.valid now → middle value now → Safe rules law i post (next value) now) :
    Safe rules law i post (program >>= next) world := by
  induction safe with
  | done ends => exact resumes _ _ valid (ends _ valid (rules.refl i _))
  | call kept _ ih =>
      refine .call kept fun now given after known seen done => ?_
      exact ih now given after known seen done (kept now given after known seen done).1

end Safe

/-- What the rules must say of a system: every program is safe where it starts, and the world stays valid when a
process dies, which the others tolerate, and when the machine stops. -/
structure Sound (rules : Rules ι σ) (system : Concurrent ι ρ answer α σ) (post : ι → α → σ → Prop) : Prop where
  starts : ∀ i world, rules.valid world → rules.idle i world →
    Safe rules (system.law i) i (post i) (system.program i) world
  dies : ∀ i world after, rules.valid world → system.dies i world after →
    rules.valid after ∧ ∀ j, j ≠ i → rules.others j world after
  stops : ∀ world after, rules.valid world → system.stops world after →
    rules.valid after ∧ ∀ i, rules.idle i world → rules.idle i after

section Sound

variable {rules : Rules ι σ} {system : Concurrent ι ρ answer α σ} {post : ι → α → σ → Prop}

/-- What is true of a process, however far it is. -/
def Run.Holds (rules : Rules ι σ) (system : Concurrent ι ρ answer α σ) (post : ι → α → σ → Prop) (world : σ) (i : ι) :
    Run ρ answer α → Prop
  | .waiting => rules.idle i world
  | .running rest => Safe rules (system.law i) i (post i) rest world
  | .gone => True

/-- The world is valid, and every process is safe from here on. -/
structure Good (rules : Rules ι σ) (system : Concurrent ι ρ answer α σ) (post : ι → α → σ → Prop)
    (now : State ι ρ answer α σ) : Prop where
  valid : rules.valid now.world
  holds : ∀ i, (now.runs i).Holds rules system post now.world i

theorem Run.Holds.mono {world after : σ} {i : ι} {run : Run ρ answer α} (holds : run.Holds rules system post world i)
    (passed : rules.others i world after) : run.Holds rules system post after i := by
  cases run with
  | waiting => exact rules.still passed holds
  | running rest => exact Safe.mono holds passed
  | gone => trivial

/-- Where one process moves, the others only see what it does to the world. -/
theorem holds_update [DecidableEq ι] {runs : ι → Run ρ answer α} {world after : σ} {i : ι} {moved : Run ρ answer α}
    (holds : ∀ j, (runs j).Holds rules system post world j) (own : moved.Holds rules system post after i)
    (passed : ∀ j, j ≠ i → rules.others j world after) (j : ι) :
    (Function.update runs i moved j).Holds rules system post after j := by
  by_cases same : j = i
  · subst same
    rw [Function.update_self]
    exact own
  · rw [Function.update_of_ne same]
    exact (holds j).mono (passed j same)

theorem Sound.step [DecidableEq ι] (sound : Sound rules system post) {now after : State ι ρ answer α σ}
    (good : Good rules system post now) (step : system.Step now after) : Good rules system post after := by
  obtain ⟨valid, holds⟩ := good
  cases step with
  | @start world runs i idle =>
      have own : (runs i).Holds rules system post world i := holds i
      rw [idle] at own
      exact ⟨valid, holds_update holds (sound.starts i world valid own) fun j _ => rules.refl j world⟩
  | @call world after runs i request next given turn done =>
      have own : (runs i).Holds rules system post world i := holds i
      rw [turn] at own
      obtain _ | ⟨kept, resumes⟩ := own
      obtain ⟨still, passed⟩ := kept world given after valid (rules.refl i world) done
      exact ⟨still, holds_update holds (resumes world given after valid (rules.refl i world) done) passed⟩
  | die i rest alive lost =>
      obtain ⟨still, passed⟩ := sound.dies i _ _ valid lost
      exact ⟨still, holds_update holds trivial passed⟩
  | @stop world after runs lost =>
      obtain ⟨still, idle⟩ := sound.stops _ _ valid lost
      refine ⟨still, fun i => ?_⟩
      have own : (runs i).Holds rules system post world i := holds i
      show (runs i).stopped.Holds rules system post after i
      cases run : runs i with
      | waiting =>
          rw [run] at own
          exact idle i own
      | running rest => trivial
      | gone => trivial

/-- In every state that is reached the world is valid and every process is safe from there on. -/
theorem Sound.reached [DecidableEq ι] (sound : Sound rules system post) {start : σ} (valid : rules.valid start)
    (idle : ∀ i, rules.idle i start) {now : State ι ρ answer α σ} (reached : system.Reached start now) :
    Good rules system post now := by
  induction reached with
  | refl => exact ⟨valid, idle⟩
  | tail _ step ih => exact sound.step ih step

/-- What a process ends with is what its program promised. -/
theorem Good.ends {now : State ι ρ answer α σ} (good : Good rules system post now) {i : ι} {value : α}
    (ended : now.runs i = .running (.done value)) : post i value now.world := by
  have own := good.holds i
  rw [ended] at own
  obtain ends | _ := own
  exact ends _ good.valid (rules.refl i _)

end Sound

end Concurrent

end OscmixDesk
