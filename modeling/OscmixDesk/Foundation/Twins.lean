/-
**Two registers that can be linked.**

Linked, a write to either sets both, and switching the link on copies the left one over the right one.
A switch that first pulls some of the two down, then links and writes, and last gives each of them its
value is compared with the linking and the writes alone:

* `run_linked`, `run_apart` — what a run of writes leaves;
* `Switching.same_iff` — when the two leave the same;
* `Switching.held_iff` — when what was pulled down stays down behind every write up to the last one.
-/

import Mathlib.Data.List.Infix
import OscmixDesk.Foundation.LastWins

namespace OscmixDesk

/-! ### Throughout a run -/

section Throughout

variable {σ ε : Type} {step : σ → ε → σ} {holds : σ → Prop} {state : σ}

/-- Something holds before a run and behind each of its steps. -/
def Throughout (step : σ → ε → σ) (holds : σ → Prop) (state : σ) (run : List ε) : Prop :=
  ∀ before, before <+: run → holds (before.foldl step state)

@[simp] theorem throughout_nil : Throughout step holds state [] ↔ holds state := by
  constructor
  · intro throughout
    exact throughout [] (List.prefix_refl [])
  · intro now before within
    obtain rfl := List.prefix_nil.mp within
    exact now

theorem throughout_cons {next : ε} {run : List ε} :
    Throughout step holds state (next :: run) ↔
      holds state ∧ Throughout step holds (step state next) run := by
  constructor
  · intro throughout
    refine ⟨throughout [] List.nil_prefix, fun before within => ?_⟩
    exact throughout (next :: before) ((List.cons_prefix_cons).mpr ⟨rfl, within⟩)
  · rintro ⟨now, later⟩ before within
    cases before with
    | nil => exact now
    | cons first before =>
        obtain ⟨rfl, shorter⟩ := List.cons_prefix_cons.mp within
        exact later before shorter

theorem throughout_append {first second : List ε} :
    Throughout step holds state (first ++ second) ↔
      Throughout step holds state first ∧ Throughout step holds (first.foldl step state) second := by
  induction first generalizing state with
  | nil =>
      rw [throughout_nil]
      refine ⟨fun all => ⟨all [] List.nil_prefix, all⟩, fun both => both.2⟩
  | cons next first ih =>
      rw [List.cons_append, throughout_cons, throughout_cons, ih, and_assoc, List.foldl_cons]

/-- A run seen through a view that each step changes by at most one step of another machine. -/
theorem foldl_view {τ δ : Type} {step' : τ → δ → τ} (view : σ → τ) {op : ε → Option δ}
    (steps : ∀ state next, view (step state next) = (op next).toList.foldl step' (view state))
    (run : List ε) : view (run.foldl step state) = (run.filterMap op).foldl step' (view state) := by
  induction run generalizing state with
  | nil => rfl
  | cons next run ih =>
      rw [List.foldl_cons, ih, steps, List.filterMap_cons]
      cases op next <;> rfl

theorem throughout_view {τ δ : Type} {step' : τ → δ → τ} (view : σ → τ) {op : ε → Option δ}
    (holds : τ → Prop)
    (steps : ∀ state next, view (step state next) = (op next).toList.foldl step' (view state))
    (run : List ε) : Throughout step (fun state => holds (view state)) state run
      ↔ Throughout step' holds (view state) (run.filterMap op) := by
  induction run generalizing state with
  | nil => rw [List.filterMap_nil, throughout_nil, throughout_nil]
  | cons next run ih =>
      rw [throughout_cons, ih, steps, List.filterMap_cons]
      cases op next with
      | none => exact and_iff_right_of_imp fun later => later [] List.nil_prefix
      | some step => exact throughout_cons.symm

/-- A prefix of a run is its first steps. -/
theorem throughout_iff_take {run : List ε} :
    Throughout step holds state run ↔ ∀ count, holds ((run.take count).foldl step state) := by
  constructor
  · intro throughout count
    exact throughout _ (List.take_prefix count run)
  · intro all before within
    rw [List.prefix_iff_eq_take.mp within]
    exact all before.length

end Throughout

/-! ### Twins -/

/-- One of two registers. -/
inductive Side
  | left
  | right
  deriving DecidableEq, Repr

/-- Two registers and whether they are linked. -/
@[ext]
structure Twins (α : Type) where
  linked : Bool
  left : α
  right : α

/-- What happens to two registers. -/
inductive Twins.Op (α : Type)
  | set (side : Side) (value : α)
  | link (on : Bool)

namespace Twins

variable {α : Type} {twins : Twins α}

/-- One of the two. -/
def get (twins : Twins α) : Side → α
  | .left => twins.left
  | .right => twins.right

/-- Linked, a write sets both; switched on, the link copies the left one. -/
def step (twins : Twins α) : Op α → Twins α
  | .set side value =>
      if twins.linked then { twins with left := value, right := value }
      else match side with
        | .left => { twins with left := value }
        | .right => { twins with right := value }
  | .link on => { linked := on, left := twins.left, right := if on then twins.left else twins.right }

/-- What a run leaves. -/
def run (twins : Twins α) (ops : List (Op α)) : Twins α :=
  ops.foldl step twins

/-- A run of writes. -/
def sets (writes : List (Side × α)) : List (Op α) :=
  writes.map fun write => .set write.1 write.2

@[simp] theorem run_nil : twins.run [] = twins := rfl

theorem run_append (first second : List (Op α)) :
    twins.run (first ++ second) = (twins.run first).run second :=
  List.foldl_append

theorem sets_append (first second : List (Side × α)) : sets (first ++ second) = sets first ++ sets second :=
  List.map_append

theorem ext_get {first second : Twins α} (linked : first.linked = second.linked)
    (values : ∀ side, first.get side = second.get side) : first = second :=
  Twins.ext linked (values .left) (values .right)

/-- Linked twins hold the last value written to either. -/
theorem run_linked (linked : twins.linked = true) (writes : List (Side × α)) (side : Side) :
    (twins.run (sets writes)).linked = true ∧
      (twins.run (sets writes)).get side = (writes.getLast?.map Prod.snd).getD (twins.get side) := by
  induction writes using List.reverseRecOn with
  | nil => exact ⟨linked, rfl⟩
  | append_singleton writes last ih =>
      obtain ⟨still, -⟩ := ih
      rw [sets_append, run_append, List.getLast?_append]
      show ((twins.run (sets writes)).step (.set last.1 last.2)).linked = true ∧
        ((twins.run (sets writes)).step (.set last.1 last.2)).get side = last.2
      simp only [step, still, if_true]
      refine ⟨trivial, ?_⟩
      cases side <;> rfl

/-- Twins apart hold the last value written to each. -/
theorem run_apart (apart : twins.linked = false) (writes : List (Side × α)) (side : Side) :
    (twins.run (sets writes)).linked = false ∧
      (twins.run (sets writes)).get side
        = ((lastOf Prod.fst side writes).map Prod.snd).getD (twins.get side) := by
  induction writes using List.reverseRecOn with
  | nil => exact ⟨apart, rfl⟩
  | append_singleton writes last ih =>
      obtain ⟨still, value⟩ := ih
      rw [sets_append, run_append]
      show ((twins.run (sets writes)).step (.set last.1 last.2)).linked = false ∧
        ((twins.run (sets writes)).step (.set last.1 last.2)).get side = _
      by_cases own : last.1 = side
      · rw [lastOf_append_same own]
        cases side <;> simp [step, still, own, get]
      · rw [lastOf_append_other own, ← value]
        rcases last with ⟨other, written⟩
        cases side <;> cases other <;> simp [step, still, get] at own ⊢

end Twins

/-! ### A switch between values pulled down -/

/-- A switch of two registers: what they hold, which are pulled down and to where, what becomes of the
link, and what is written. -/
structure Switching (α : Type) where
  start : Twins α
  down : Side → Bool
  floor : α
  link : Option Bool
  writes : List (Side × α)

namespace Switching

open Twins

variable {α : Type} (switching : Switching α)

/-- The value the switch writes to one of the two. -/
def planned (side : Side) : Option α :=
  (lastOf Prod.fst side switching.writes).map Prod.snd

/-- The value one of the two is given behind the writes: the one written, else the one it held. -/
def given (side : Side) : α :=
  (switching.planned side).getD (switching.start.get side)

/-- The sides that are pulled down. -/
def downs : List Side :=
  [Side.left, Side.right].filter switching.down

/-- A write to each of them. -/
def each (value : Side → α) : List (Side × α) :=
  switching.downs.map fun side => (side, value side)

def pulled : List (Side × α) :=
  switching.each fun _ => switching.floor

def links : List (Op α) :=
  switching.link.toList.map .link

/-- The writes to the sides that are not pulled down. -/
def others : List (Side × α) :=
  switching.writes.filter fun write => !switching.down write.1

def backs : List (Side × α) :=
  switching.each switching.given

/-- The linking and the writes alone. -/
def plainly : Twins α :=
  switching.start.run (switching.links ++ sets switching.writes)

/-- The same with the values pulled down before and given back behind. -/
def quietly : Twins α :=
  switching.start.run
    (sets switching.pulled ++ (switching.links ++ sets switching.others) ++ sets switching.backs)

/-- Whether the two are linked behind the switch. -/
def ends : Bool :=
  switching.link.getD switching.start.linked

/-- What was pulled down is down. -/
def Quiet (twins : Twins α) : Prop :=
  ∀ side, switching.down side → twins.get side = switching.floor

/-- Where the switch leaves the same with its values pulled down: linked behind it, the value given
back last is the one the plain switch leaves; taken apart by it, a side that is neither pulled down nor
written was at the floor. -/
structure Same : Prop where
  linked : switching.ends = true → ∀ side, switching.downs.getLast? = some side →
    switching.given side = (switching.writes.getLast?.map Prod.snd).getD switching.start.left
  apart : switching.ends = false → switching.start.linked = true → switching.downs ≠ [] →
    ∀ side, switching.down side = false → switching.planned side = none →
      switching.start.get side = switching.floor

/-- Where what was pulled down stays down: linked behind the switch, a side that was not pulled down is
written at the floor only; joined by it, what is copied over a side that was pulled down is at the floor. -/
structure Held : Prop where
  written : switching.ends = true → switching.downs ≠ [] →
    ∀ write ∈ switching.others, write.2 = switching.floor
  copied : switching.ends = true → switching.start.linked = false → switching.down .right = true →
    switching.down .left = true ∨ switching.start.left = switching.floor

section Ends

variable {switching} {twins : Twins α}

theorem mem_downs {side : Side} : side ∈ switching.downs ↔ switching.down side = true := by
  cases side <;> simp [downs, List.mem_filter]

theorem each_last (value : Side → α) {side : Side} (last : switching.downs.getLast? = some side) :
    (switching.each value).getLast?.map Prod.snd = some (value side) := by
  rw [each, List.getLast?_map, last]
  rfl

theorem each_of (value : Side → α) (side : Side) :
    (lastOf Prod.fst side (switching.each value)).map Prod.snd
      = if switching.down side then some (value side) else none := by
  have last : lastOf Prod.fst side (switching.each value)
      = (lastOf id side switching.downs).map fun side => (side, value side) :=
    lastOf_map fun _ => rfl
  rw [last]
  cases found : lastOf id side switching.downs with
  | none =>
      have absent := lastOf_eq_none.mp found
      rw [if_neg fun down => absent side (mem_downs.mpr down) rfl]
      rfl
  | some last =>
      obtain rfl : last = side := key_lastOf found
      rw [if_pos (mem_downs.mp (mem_of_lastOf found))]
      rfl

/-! ### The values pulled down -/

/-- Linked, pulling one down leaves both at the floor. -/
theorem run_pulled_linked (linked : switching.start.linked = true) (some : switching.downs ≠ [])
    (side : Side) : (switching.start.run (sets switching.pulled)).get side = switching.floor := by
  rw [(run_linked linked _ side).2]
  obtain ⟨last, found⟩ := Option.isSome_iff_exists.mp (List.getLast?_isSome.mpr some)
  rw [pulled, each_last _ found]
  rfl

/-- Pulling down leaves the link, and a side that is pulled down at the floor. -/
theorem run_pulled : (switching.start.run (sets switching.pulled)).linked = switching.start.linked
    ∧ switching.Quiet (switching.start.run (sets switching.pulled)) := by
  cases linked : switching.start.linked with
  | true =>
      refine ⟨(run_linked linked _ .left).1, fun side down => ?_⟩
      exact run_pulled_linked linked (List.ne_nil_of_mem (mem_downs.mpr down)) side
  | false =>
      refine ⟨(run_apart linked _ .left).1, fun side down => ?_⟩
      rw [(run_apart linked _ side).2, pulled, each_of, if_pos down]
      rfl

/-- Apart, a side that is not pulled down is where it was. -/
theorem run_pulled_apart (apart : switching.start.linked = false) {side : Side}
    (up : switching.down side = false) :
    (switching.start.run (sets switching.pulled)).get side = switching.start.get side := by
  rw [(run_apart apart _ side).2, pulled, each_of, up]
  rfl

/-! ### The link -/

theorem links_linked : (twins.run switching.links).linked = switching.link.getD twins.linked := by
  unfold links
  cases switching.link <;> rfl

/-- Behind a link that is off both are where they were. -/
theorem links_apart (off : switching.link.getD twins.linked = false) (side : Side) :
    (twins.run switching.links).get side = twins.get side := by
  unfold links
  cases on : switching.link with
  | none => rfl
  | some on' =>
      rw [on] at off
      obtain rfl : on' = false := off
      cases side <;> rfl

/-- Behind a link that is on both are where the left one was. -/
theorem links_joined (on : switching.link.getD twins.linked = true)
    (shared : twins.linked = true → twins.left = twins.right) (side : Side) :
    (twins.run switching.links).get side = twins.left := by
  unfold links
  cases known : switching.link with
  | none =>
      rw [known] at on
      cases side with
      | left => rfl
      | right => exact (shared on).symm
  | some on' =>
      rw [known] at on
      obtain rfl : on' = true := on
      cases side <;> rfl

/-- A side that is not pulled down is written as planned. -/
theorem others_of {side : Side} (up : switching.down side = false) :
    (lastOf Prod.fst side switching.others).map Prod.snd = switching.planned side := by
  unfold others planned
  rw [lastOf_filter]
  rintro write - rfl
  rw [up]
  rfl

/-! ### The two results -/

/-- Linked behind the switch, both hold what was written last, or what the left one held. -/
theorem plainly_linked (ends : switching.ends = true)
    (shared : switching.start.linked = true → switching.start.left = switching.start.right)
    (side : Side) : switching.plainly.linked = true ∧ switching.plainly.get side
      = (switching.writes.getLast?.map Prod.snd).getD switching.start.left := by
  have on : (switching.start.run switching.links).linked = true := links_linked.trans ends
  unfold plainly
  rw [run_append, (run_linked on _ side).2, links_joined ends shared]
  exact ⟨(run_linked on _ side).1, rfl⟩

/-- Linked behind the switch, both hold the value given back last. -/
theorem quietly_linked (ends : switching.ends = true) {last : Side}
    (gave : switching.downs.getLast? = some last) (side : Side) :
    switching.quietly.linked = true ∧ switching.quietly.get side = switching.given last := by
  have on : ((switching.start.run (sets switching.pulled)).run switching.links).linked = true := by
    rw [links_linked, run_pulled.1]
    exact ends
  unfold quietly
  rw [List.append_assoc, List.append_assoc, ← sets_append, run_append, run_append,
    (run_linked on _ side).2]
  refine ⟨(run_linked on _ side).1, ?_⟩
  have backs := switching.each_last switching.given gave
  obtain ⟨write, found, same⟩ := Option.map_eq_some_iff.mp backs
  rw [List.getLast?_append, Switching.backs, found]
  exact same

/-- Apart behind the switch, each holds what was written to it, or what it held. -/
theorem plainly_apart (ends : switching.ends = false) (side : Side) :
    switching.plainly.linked = false ∧ switching.plainly.get side = switching.given side := by
  have off : (switching.start.run switching.links).linked = false := links_linked.trans ends
  unfold plainly
  rw [run_append, (run_apart off _ side).2, links_apart ends]
  exact ⟨(run_apart off _ side).1, rfl⟩

/-- Apart behind the switch, a side that was pulled down holds what it was given, and one that was not
what was written to it, or what it was pulled to with its twin. -/
theorem quietly_apart (ends : switching.ends = false) (side : Side) :
    switching.quietly.linked = false ∧ switching.quietly.get side
      = if switching.down side then switching.given side
        else (switching.planned side).getD
          ((switching.start.run (sets switching.pulled)).get side) := by
  have still : switching.link.getD (switching.start.run (sets switching.pulled)).linked = false := by
    rw [run_pulled.1]
    exact ends
  have off : ((switching.start.run (sets switching.pulled)).run switching.links).linked = false :=
    links_linked.trans still
  unfold quietly
  rw [List.append_assoc, List.append_assoc, ← sets_append, run_append, run_append,
    (run_apart off _ side).2, links_apart still, lastOf_append, Option.map_or]
  refine ⟨(run_apart off _ side).1, ?_⟩
  rw [backs, each_of]
  cases down : switching.down side with
  | true => rfl
  | false => exact congrArg (Option.getD · _) (others_of down)

theorem up_of_none (none : switching.downs = []) (side : Side) : switching.down side = false := by
  cases down : switching.down side with
  | false => rfl
  | true =>
      have member := mem_downs.mpr down
      rw [none] at member
      cases member

/-- Twins that are not pulled down are switched as they are. -/
theorem quietly_undisturbed (none : switching.downs = []) : switching.quietly = switching.plainly := by
  have others : switching.others = switching.writes := by
    refine List.filter_eq_self.mpr fun write _ => ?_
    rw [up_of_none none]
    rfl
  unfold quietly plainly pulled backs each
  rw [none, others]
  exact congrArg switching.start.run (List.append_nil _)

theorem same_undisturbed (none : switching.downs = []) : switching.Same where
  linked _ side last := by
    rw [none] at last
    cases last
  apart _ _ some := absurd none some

theorem held_undisturbed (none : switching.downs = []) : switching.Held where
  written _ some := absurd none some
  copied _ _ down := by
    rw [up_of_none none .right] at down
    cases down

theorem same_iff (shared : switching.start.linked = true → switching.start.left = switching.start.right) :
    switching.quietly = switching.plainly ↔ switching.Same := by
  by_cases none : switching.downs = []
  · exact iff_of_true (quietly_undisturbed none) (same_undisturbed none)
  · obtain ⟨last, gave⟩ := Option.isSome_iff_exists.mp (List.getLast?_isSome.mpr none)
    cases ends : switching.ends with
    | true =>
        have quiet := quietly_linked ends gave
        have plain := plainly_linked ends shared
        constructor
        · intro same
          refine ⟨fun _ side last' => ?_, fun off => ?_⟩
          · obtain rfl := Option.some.inj (gave.symm.trans last')
            rw [← (quiet .left).2, same, (plain .left).2]
          · rw [ends] at off
            cases off
        · intro same
          refine ext_get ((quiet .left).1.trans (plain .left).1.symm) fun side => ?_
          rw [(quiet side).2, (plain side).2, same.linked ends last gave]
    | false =>
        have quiet := quietly_apart ends
        have plain := plainly_apart ends
        constructor
        · intro same
          refine ⟨fun on => ?_, fun _ linked some side up unplanned => ?_⟩
          · rw [ends] at on
            cases on
          · have held := (quiet side).2
            rw [up, if_neg Bool.false_ne_true, same, (plain side).2, given, unplanned,
              run_pulled_linked linked some] at held
            exact held
        · intro same
          refine ext_get ((quiet .left).1.trans (plain .left).1.symm) fun side => ?_
          rw [(quiet side).2, (plain side).2]
          cases up : switching.down side with
          | true => rfl
          | false =>
              rw [if_neg Bool.false_ne_true]
              unfold given
              cases unplanned : switching.planned side with
              | some value => rfl
              | none =>
                  show (switching.start.run (sets switching.pulled)).get side = switching.start.get side
                  cases linked : switching.start.linked with
                  | true => rw [run_pulled_linked linked none, same.apart ends linked none side up unplanned]
                  | false => exact run_pulled_apart linked up

/-- Apart, writes to other sides leave what is down. -/
theorem throughout_apart (writes : List (Side × α)) {twins : Twins α} (apart : twins.linked = false)
    (quiet : switching.Quiet twins) (up : ∀ write ∈ writes, switching.down write.1 = false) :
    Throughout step switching.Quiet twins (sets writes) := by
  induction writes generalizing twins with
  | nil => exact throughout_nil.mpr quiet
  | cons write writes ih =>
      refine throughout_cons.mpr ⟨quiet, ih (run_apart apart [write] .left).1 ?_ ?_⟩
      · intro side down
        have other : write.1 ≠ side := by
          rintro rfl
          rw [up write (List.mem_cons_self ..)] at down
          cases down
        have kept := (run_apart apart [write] side).2
        rw [lastOf_eq_none.mpr (by simpa using other)] at kept
        exact kept.trans (quiet side down)
      · exact fun other member => up other (List.mem_cons_of_mem _ member)

/-- Linked, what is down stays down under writes at the floor only. -/
theorem throughout_linked (some : switching.downs ≠ []) (writes : List (Side × α)) {twins : Twins α}
    (linked : twins.linked = true) : Throughout step switching.Quiet twins (sets writes)
      ↔ switching.Quiet twins ∧ ∀ write ∈ writes, write.2 = switching.floor := by
  obtain ⟨down, member⟩ := List.exists_mem_of_ne_nil _ some
  induction writes generalizing twins with
  | nil => simp [sets]
  | cons write writes ih =>
      have after (side : Side) : (twins.step (.set write.1 write.2)).get side = write.2 :=
        (run_linked linked [write] side).2
      have quiet : switching.Quiet (twins.step (.set write.1 write.2)) ↔ write.2 = switching.floor := by
        constructor
        · intro quiet
          rw [← after down, quiet down (mem_downs.mp member)]
        · intro floor side _
          rw [after, floor]
      have still : (twins.step (.set write.1 write.2)).linked = true := (run_linked linked [write] .left).1
      show Throughout step switching.Quiet twins (Op.set write.1 write.2 :: sets writes) ↔ _
      rw [throughout_cons, ih still, quiet, List.forall_mem_cons]

theorem held_iff : Throughout step switching.Quiet (switching.start.run (sets switching.pulled))
    (switching.links ++ sets switching.others) ↔ switching.Held := by
  obtain ⟨still, quiet⟩ := switching.run_pulled
  -- the link is one step at most: what holds in front of it and behind it holds throughout
  have joined : Throughout step switching.Quiet (switching.start.run (sets switching.pulled))
        (switching.links ++ sets switching.others)
      ↔ switching.Quiet ((switching.start.run (sets switching.pulled)).run switching.links)
        ∧ Throughout step switching.Quiet
          ((switching.start.run (sets switching.pulled)).run switching.links) (sets switching.others) := by
    rw [throughout_append]
    refine ⟨fun both => ⟨?_, both.2⟩, fun both => ⟨?_, both.2⟩⟩
    · exact both.1 _ (List.prefix_refl _)
    · unfold links at both ⊢
      cases known : switching.link with
      | none => exact throughout_nil.mpr quiet
      | some on =>
          rw [known] at both
          exact throughout_cons.mpr ⟨quiet, throughout_nil.mpr both.1⟩
  rw [joined]
  set pulled := switching.start.run (sets switching.pulled)
  by_cases none : switching.downs = []
  · have silent (twins : Twins α) : switching.Quiet twins := fun side down => by
      rw [up_of_none none side] at down
      cases down
    exact iff_of_true ⟨silent _, fun _ _ => silent _⟩ (held_undisturbed none)
  cases ends : switching.ends with
  | false =>
      have still' : switching.link.getD pulled.linked = false := by rw [still]; exact ends
      have behind : switching.Quiet (pulled.run switching.links) := fun side down => by
        rw [links_apart still']
        exact quiet side down
      refine iff_of_true ⟨behind, throughout_apart _ (links_linked.trans still') behind ?_⟩
        ⟨fun on => ?_, fun on => ?_⟩
      · intro write member
        simpa using (List.mem_filter.mp member).2
      · rw [ends] at on
        cases on
      · rw [ends] at on
        cases on
  | true =>
      have still' : switching.link.getD pulled.linked = true := by rw [still]; exact ends
      rw [throughout_linked none _ (links_linked.trans still')]
      have copied : switching.Quiet (pulled.run switching.links) ↔
          (switching.start.linked = false → switching.down .right = true →
            switching.down .left = true ∨ switching.start.left = switching.floor) := by
        cases linked : switching.start.linked with
        | true =>
            have floor := run_pulled_linked linked none
            have both (side : Side) : (pulled.run switching.links).get side = switching.floor :=
              (links_joined still' (fun _ => (floor .left).trans (floor .right).symm) side).trans (floor .left)
            exact iff_of_true (fun side _ => both side) fun apart => by cases apart
        | false =>
            have apart : pulled.linked = true → pulled.left = pulled.right := fun on => by
              rw [still, linked] at on
              cases on
            have left (side : Side) : (pulled.run switching.links).get side = pulled.get .left :=
              links_joined still' apart side
            cases down : switching.down .left with
            | true =>
                refine iff_of_true (fun side _ => ?_) fun _ _ => Or.inl rfl
                rw [left]
                exact quiet .left down
            | false =>
                have own : pulled.get .left = switching.start.left := run_pulled_apart linked down
                constructor
                · intro behind _ right
                  refine Or.inr ?_
                  rw [← own, ← left .right, behind .right right]
                · intro floor side member
                  cases side with
                  | left =>
                      rw [down] at member
                      cases member
                  | right =>
                      rw [left, own]
                      exact (floor rfl member).resolve_left Bool.false_ne_true
      rw [and_iff_right_of_imp fun both => both.1, copied]
      constructor
      · rintro ⟨copies, writes⟩
        exact ⟨fun _ _ => writes, fun _ => copies⟩
      · rintro ⟨writes, copies⟩
        exact ⟨copies ends, writes ends none⟩

end Ends

end Switching

end OscmixDesk
