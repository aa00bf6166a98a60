/-
**Programs that read a changing world.**

A program that reads something outside itself reads it at a moment, and the world changes between any two
reads (`look`). `Finds` says what a program has found where it returns: between its first moment and its last
one it read this and that. Each way to put programs together has one rule:

* `finds_pure`, `finds_look`, `Finds.bind`, `Finds.map` — a value, a read, a sequence;
* `finds_lift`, `Finds.ite`, `Finds.attempt`, `Finds.recover` — a check, a choice, a failure that is caught;
* `Finds.mapM` — a loop, item by item;
* `Finds.imp` — weaker findings.

`Reads` is a program that only reads on, and `Reads.run` its run as a finding. `Seen` is what was so at a read
between two moments; it stays seen where the moments move apart (`Seen.widen`).
-/

import OscmixDesk.Foundation.Checks
import OscmixDesk.Foundation.Effects

namespace OscmixDesk.Observed

open Effects

variable {ω ε α β : Type}

/-- A world that changes, and the moment of the next read. -/
structure Moment (ω : Type) where
  world : ℕ → ω
  now : ℕ

/-- The same world, at a later read or the same. -/
structure Later (first last : Moment ω) : Prop where
  world : last.world = first.world
  now : first.now ≤ last.now

theorem Later.refl (moment : Moment ω) : Later moment moment := ⟨rfl, Nat.le_refl _⟩

theorem Later.trans {first second third : Moment ω} (later : Later first second) (later' : Later second third) :
    Later first third :=
  ⟨later'.world.trans later.world, Nat.le_trans later.now later'.now⟩

def Moment.tick (moment : Moment ω) : Moment ω := { moment with now := moment.now + 1 }

theorem Moment.later_tick (moment : Moment ω) : Later moment moment.tick := ⟨rfl, Nat.le_succ _⟩

/-- A read. -/
def look (read : ω → Except ε α) : Prog (Moment ω) ε α := fun moment =>
  (read (moment.world moment.now), moment.tick)

/-- The moment of the next read. -/
def moment : Prog (Moment ω) ε ℕ := fun moment => (.ok moment.now, moment)

/-- A program whose failure is nothing found. -/
def attempt (prog : Prog (Moment ω) ε α) : Prog (Moment ω) ε (Option α) :=
  tryCatch (some <$> prog) fun _ => pure none

/-- What a program has found, between its first read and its last one. -/
def Finds (prog : Prog (Moment ω) ε α) (found : α → Moment ω → Moment ω → Prop) : Prop :=
  ∀ start, Ends prog start (fun value last => Later start last ∧ found value start last)
    fun _ last => Later start last

section Rules

variable {found : α → Moment ω → Moment ω → Prop}

theorem Finds.imp {prog : Prog (Moment ω) ε α} {found' : α → Moment ω → Moment ω → Prop} (finds : Finds prog found)
    (weaker : ∀ value first last, Later first last → found value first last → found' value first last) :
    Finds prog found' := fun start =>
  (finds start).imp (fun value last ⟨later, holds⟩ => ⟨later, weaker value start last later holds⟩)
    fun _ _ later => later

/-- What a run that returned has found. -/
theorem Finds.returned {prog : Prog (Moment ω) ε α} (finds : Finds prog found) {first last : Moment ω} {value : α}
    (run : prog first = (.ok value, last)) : Later first last ∧ found value first last :=
  (finds first).returned run

theorem finds_pure (value : α) : Finds (pure value : Prog (Moment ω) ε α) fun other first last =>
    other = value ∧ last = first := fun start => ⟨Later.refl start, rfl, rfl⟩

theorem finds_throw (problem : ε) (found : α → Moment ω → Moment ω → Prop) :
    Finds (throw problem : Prog (Moment ω) ε α) found := fun start => Later.refl start

theorem finds_look (read : ω → Except ε α) : Finds (look read) fun value first last =>
    last = first.tick ∧ read (first.world first.now) = .ok value := fun start => by
  unfold Ends look
  cases known : read (start.world start.now) with
  | ok value => exact ⟨start.later_tick, rfl, known⟩
  | error problem => exact start.later_tick

theorem finds_moment : Finds (moment : Prog (Moment ω) ε ℕ) fun now first last =>
    last = first ∧ now = first.now := fun start => ⟨Later.refl start, rfl, rfl⟩

theorem finds_lift (result : Except ε α) : Finds (lift result : Prog (Moment ω) ε α) fun value first last =>
    last = first ∧ result = .ok value := fun start => by
  rw [ends_lift]
  exact ⟨fun value known => ⟨Later.refl start, rfl, known⟩, fun _ _ => Later.refl start⟩

theorem Finds.bind {first : Prog (Moment ω) ε β} {next : β → Prog (Moment ω) ε α}
    {found : β → Moment ω → Moment ω → Prop} {found' : β → α → Moment ω → Moment ω → Prop}
    (finds : Finds first found) (then' : ∀ value, Finds (next value) (found' value)) :
    Finds (first >>= next) fun result start last => ∃ value middle, Later start middle ∧ Later middle last
      ∧ found value start middle ∧ found' value result middle last := fun start => by
  rw [ends_bind]
  refine (finds start).imp (fun value middle ⟨later, holds⟩ => ?_) fun _ _ later => later
  exact (then' value middle).imp
    (fun result last ⟨later', holds'⟩ => ⟨later.trans later', value, middle, later, later', holds, holds'⟩)
    fun _ _ later' => later.trans later'

/-- A sequence, with what its end finds given. -/
theorem Finds.andThen (found' : β → α → Moment ω → Moment ω → Prop) {first : Prog (Moment ω) ε β}
    {next : β → Prog (Moment ω) ε α} {found : β → Moment ω → Moment ω → Prop} (finds : Finds first found)
    (then' : ∀ value, Finds (next value) (found' value)) :
    Finds (first >>= next) fun result start last => ∃ value middle, Later start middle ∧ Later middle last
      ∧ found value start middle ∧ found' value result middle last :=
  finds.bind then'

theorem Finds.map {prog : Prog (Moment ω) ε β} {found : β → Moment ω → Moment ω → Prop} (finds : Finds prog found)
    (change : β → α) : Finds (change <$> prog) fun result first last =>
      ∃ value, result = change value ∧ found value first last := fun start => by
  rw [ends_map]
  exact (finds start).imp (fun value last ⟨later, holds⟩ => ⟨later, value, rfl, holds⟩) fun _ _ later => later

theorem Finds.ite {holds : Prop} [Decidable holds] {yes no : Prog (Moment ω) ε α}
    {found' : α → Moment ω → Moment ω → Prop} (ifSo : holds → Finds yes found)
    (otherwise : ¬ holds → Finds no found') : Finds (if holds then yes else no) fun value first last =>
      holds ∧ found value first last ∨ ¬ holds ∧ found' value first last := by
  by_cases known : holds
  · rw [if_pos known]
    exact (ifSo known).imp fun _ _ _ _ held => Or.inl ⟨known, held⟩
  · rw [if_neg known]
    exact (otherwise known).imp fun _ _ _ _ held => Or.inr ⟨known, held⟩

theorem Finds.recover {prog : Prog (Moment ω) ε α} {handler : ε → Prog (Moment ω) ε α} (finds : Finds prog found)
    (handles : ∀ problem, Finds (handler problem) found)
    (widen : ∀ value first middle last, Later first middle → found value middle last → found value first last) :
    Finds (tryCatch prog handler) found := fun start => by
  rw [ends_catch]
  refine (finds start).imp (fun _ _ held => held) fun problem middle later => ?_
  exact (handles problem middle).imp
    (fun value last ⟨later', held⟩ => ⟨later.trans later', widen value start middle last later held⟩)
    fun _ _ later' => later.trans later'

theorem Finds.attempt {prog : Prog (Moment ω) ε α} (finds : Finds prog found) :
    Finds (attempt prog) fun result first last => ∀ value, result = some value → found value first last :=
  fun start => by
    unfold Observed.attempt
    rw [ends_catch, ends_map]
    refine (finds start).imp (fun value last ⟨later, held⟩ => ⟨later, fun other same => ?_⟩)
      fun _ middle later => ⟨later, fun other same => by cases same⟩
    obtain rfl := Option.some_inj.mp same
    exact held

theorem lawfulMonad : LawfulMonad (Prog (Moment ω) ε) :=
  LawfulMonad.mk' (Prog (Moment ω) ε)
    (fun prog => by
      funext start
      show Prog.andThen prog Prog.ret start = prog start
      unfold Prog.andThen
      rcases prog start with ⟨_ | _, _⟩ <;> rfl)
    (fun _ _ => rfl)
    (fun prog next last => by
      funext start
      show Prog.andThen (Prog.andThen prog next) last start
        = Prog.andThen prog (fun value => Prog.andThen (next value) last) start
      unfold Prog.andThen
      rcases prog start with ⟨_ | _, _⟩ <;> rfl)

theorem Finds.mapM {items : List β} {body : β → Prog (Moment ω) ε α}
    {found : β → α → Moment ω → Moment ω → Prop} (each : ∀ item ∈ items, Finds (body item) (found item)) :
    Finds (items.mapM body) fun results start last => List.Forall₂ (fun item result =>
      ∃ first then', Later start first ∧ Later then' last ∧ found item result first then')
      items results := by
  have lawful := @lawfulMonad ω ε
  induction items with
  | nil =>
      rw [List.mapM_nil]
      refine (finds_pure _).imp fun results first last _ ⟨same, _⟩ => ?_
      subst same
      exact List.Forall₂.nil
  | cons item items ih =>
      rw [List.mapM_cons]
      have rest := ih fun other member => each other (List.mem_cons_of_mem _ member)
      refine (Finds.bind (each item List.mem_cons_self) fun result =>
        Finds.bind rest fun results => finds_pure (result :: results)).imp ?_
      rintro results start last - ⟨result, middle, up, here, held, others, middle', -, later, there, rfl, rfl⟩
      refine List.Forall₂.cons ⟨start, middle, Later.refl _, here, held⟩ ?_
      exact there.imp fun _ _ ⟨first, then', after, before, held⟩ =>
        ⟨first, then', up.trans after, before.trans later, held⟩

end Rules

/-! ### Reading on -/

/-- A program that only reads on. -/
def Reads (prog : Prog (Moment ω) ε α) : Prop :=
  Finds prog fun _ _ _ => True

theorem Finds.reads {prog : Prog (Moment ω) ε α} {found : α → Moment ω → Moment ω → Prop} (finds : Finds prog found) :
    Reads prog :=
  finds.imp fun _ _ _ _ _ => trivial

theorem Reads.bind {first : Prog (Moment ω) ε β} {next : β → Prog (Moment ω) ε α} (reads : Reads first)
    (then' : ∀ value, Reads (next value)) : Reads (first >>= next) :=
  (Finds.bind reads then').reads

theorem Reads.ite {holds : Prop} [Decidable holds] {yes no : Prog (Moment ω) ε α} (ifSo : Reads yes)
    (otherwise : Reads no) : Reads (if holds then yes else no) :=
  (Finds.ite (fun _ => ifSo) fun _ => otherwise).reads

/-- What a program that reads on has found is what its run returned. -/
theorem Reads.run {prog : Prog (Moment ω) ε α} (reads : Reads prog) :
    Finds prog fun value first last => prog first = (.ok value, last) := fun start =>
  ((reads start).and (ends_self prog start)).imp (fun _ _ ⟨⟨later, _⟩, ran⟩ => ⟨later, ran⟩)
    fun _ _ ⟨later, _⟩ => later

/-! ### What was seen -/

/-- It was so at a read between the two moments. -/
def Seen (first last : Moment ω) (fact : ω → Prop) : Prop :=
  ∃ t, first.now ≤ t ∧ t < last.now ∧ fact (first.world t)

theorem Seen.widen {start first last stop : Moment ω} {fact : ω → Prop} (seen : Seen first last fact)
    (before : Later start first) (after : Later last stop) : Seen start stop fact := by
  obtain ⟨t, low, high, holds⟩ := seen
  exact ⟨t, Nat.le_trans before.now low, Nat.lt_of_lt_of_le high after.now, before.world ▸ holds⟩

theorem Seen.imp {first last : Moment ω} {fact fact' : ω → Prop} (seen : Seen first last fact)
    (weaker : ∀ w, fact w → fact' w) : Seen first last fact' := by
  obtain ⟨t, low, high, holds⟩ := seen
  exact ⟨t, low, high, weaker _ holds⟩

theorem seen_tick {moment : Moment ω} {fact : ω → Prop} (holds : fact (moment.world moment.now)) :
    Seen moment moment.tick fact :=
  ⟨moment.now, Nat.le_refl _, Nat.lt_succ_self _, holds⟩

/-- What a read found was so when it read. -/
theorem look_seen {read : ω → Except ε α} {fact : α → ω → Prop}
    (tells : ∀ w value, read w = .ok value → fact value w) :
    Finds (look read) fun value first last => Seen first last (fact value) :=
  (finds_look read).imp fun value _ _ _ ⟨same, holds⟩ => same ▸ seen_tick (tells _ value holds)

/-- And what a read failed on. -/
theorem attempt_seen {read : ω → Except ε α} {fact : Option α → ω → Prop}
    (tells : ∀ w value, read w = .ok value → fact (some value) w)
    (fails : ∀ w problem, read w = .error problem → fact none w) :
    Finds (attempt (look read)) fun value first last => Seen first last (fact value) := fun start => by
  unfold attempt
  rw [ends_catch, ends_map]
  unfold Ends look
  cases known : read (start.world start.now) with
  | ok value => exact ⟨start.later_tick, seen_tick (tells _ value known)⟩
  | error problem => exact ⟨start.later_tick, seen_tick (fails _ problem known)⟩

end OscmixDesk.Observed
