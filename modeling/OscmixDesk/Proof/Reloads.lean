/-
**No reload request is lost.**

What is asked for and not yet served can be read off the flags and the place of the main thread (`Kept`): a
SIGHUP nobody has taken has its flag up, a flag that was taken is on its way to a reconcile, and the flag that
wakes the loop is down only between its clearing and the pops. Every step keeps it (`Kept.step`).
-/

import OscmixDesk.Foundation.Traces
import OscmixDesk.Model.Supervise

namespace OscmixDesk.Supervise

open Traces

/-! ### What is open -/

/-- A reconcile begins. -/
def Deed.Begins : Deed → Prop
  | .began _ => True
  | _ => False

/-- What raises the flag of a reason. -/
def raises : Reason → Deed
  | .sighup => .delivered
  | .watch => .requested

/-- Raised, and its flag not taken since. -/
def Untaken (reason : Reason) : List Deed → Prop :=
  Unanswered (fun _ deed => deed = raises reason) (· = .took reason)

/-- A SIGHUP, and no reconcile for SIGHUP since. -/
def Waits : List Deed → Prop :=
  Unanswered (fun _ deed => deed = .delivered) (· = .began .sighup)

/-- A request of the watcher that was begun, and no reconcile since. -/
def Asked : List Deed → Prop :=
  Unanswered (fun _ deed => deed = .requested) Deed.Begins

/-- A request of the watcher that was begun and completed, and no reconcile since. -/
def Completed : List Deed → Prop :=
  Unanswered (fun before deed => deed = .completed ∧ Asked before) Deed.Begins

/-- A flag that was raised and taken, and no reconcile since it was taken. -/
def Taken (reason : Reason) : List Deed → Prop :=
  Unanswered (fun before deed => deed = .took reason ∧ Untaken reason before) Deed.Begins

/-- A forgive, and since then no reconcile and no SIGHUP taken. -/
def Forgiven : List Deed → Prop :=
  Unanswered (fun _ deed => deed = .forgave) fun deed => deed.Begins ∨ deed = .took .sighup

/-- A reconcile begins for what was raised and taken; where a SIGHUP was taken it is for SIGHUP, behind a
forgive of the watcher. -/
structure Founded (watcher : Bool) (before : List Deed) (reason : Reason) : Prop where
  taken : Taken reason before
  sighup : Taken .sighup before → reason = .sighup
  forgiven : reason = .sighup → watcher = true → Forgiven before

/-! ### The invariant -/

/-- The main thread has taken a SIGHUP and not begun its reconcile. -/
def Point.serves : Point → Prop
  | .poppingWatch sighup => sighup = true
  | .choosing sighup _ => sighup = true
  | .forgiving => True
  | .calling reason => reason = .sighup
  | _ => False

/-- The main thread has taken a flag of the watcher, or may have. -/
def Point.watches : Point → Prop
  | .choosing _ watched => watched = true
  | .forgiving => True
  | .calling _ => True
  | _ => False

/-- The flags are being popped, or were. -/
def Point.pops : Point → Prop
  | .poppingSighup => True
  | .poppingWatch _ => True
  | point => point.watches

/-- What the main thread has popped was raised and taken. -/
def Point.Holds (deeds : List Deed) : Point → Prop
  | .poppingWatch sighup => sighup = true → Taken .sighup deeds
  | .choosing sighup watched => (sighup = true → Taken .sighup deeds) ∧ (watched = true → Taken .watch deeds)
  | .forgiving => Taken .sighup deeds
  | .calling reason => Taken reason deeds
  | _ => True

structure Kept (watcher : Bool) (s : Loop) : Prop where
  sighup : Untaken .sighup s.deeds ↔ s.sighup = true ∨ 0 < s.handling
  watch : Untaken .watch s.deeds ↔ s.watch = true
  wakes : s.sighup = true ∨ 0 < s.handling → s.reload = true ∨ s.point = .poppingSighup
  waits : Waits s.deeds → Untaken .sighup s.deeds ∨ s.point.serves
  asked : Asked s.deeds → Untaken .watch s.deeds ∨ s.point.watches
  completed : Completed s.deeds → s.reload = true ∨ s.point.pops
  holds : s.point.Holds s.deeds
  served : Taken .sighup s.deeds → s.point.serves
  forgiven : s.point = .calling .sighup → watcher = true → Forgiven s.deeds
  founded : ∀ before reason after, s.deeds = before ++ .began reason :: after → Founded watcher before reason

theorem kept_start (watcher : Bool) : Kept watcher start where
  sighup := by simp [start, Untaken, unanswered_nil]
  watch := by simp [start, Untaken, unanswered_nil]
  wakes := by simp [start]
  waits := fun waits => absurd waits unanswered_nil
  asked := fun asked => absurd asked unanswered_nil
  completed := fun completed => absurd completed unanswered_nil
  holds := trivial
  served := fun taken => absurd taken unanswered_nil
  forgiven := fun calls => by cases calls
  founded := fun before reason after split => by simp [start] at split

/-! ### What a deed changes -/

section Deeds

variable {deeds : List Deed} {deed : Deed} {reason : Reason}

theorem untaken_append : Untaken reason (deeds ++ [deed])
    ↔ deed = raises reason ∨ Untaken reason deeds ∧ deed ≠ .took reason := unanswered_append

theorem waits_append : Waits (deeds ++ [deed])
    ↔ deed = .delivered ∨ Waits deeds ∧ deed ≠ .began .sighup := unanswered_append

theorem asked_append : Asked (deeds ++ [deed]) ↔ deed = .requested ∨ Asked deeds ∧ ¬ deed.Begins :=
  unanswered_append

theorem completed_append : Completed (deeds ++ [deed])
    ↔ deed = .completed ∧ Asked deeds ∨ Completed deeds ∧ ¬ deed.Begins := unanswered_append

theorem taken_append : Taken reason (deeds ++ [deed])
    ↔ deed = .took reason ∧ Untaken reason deeds ∨ Taken reason deeds ∧ ¬ deed.Begins := unanswered_append

theorem forgiven_append : Forgiven (deeds ++ [deed])
    ↔ deed = .forgave ∨ Forgiven deeds ∧ ¬ (deed.Begins ∨ deed = .took .sighup) := unanswered_append

theorem Completed.asked (completed : Completed deeds) : Asked deeds := by
  obtain ⟨before, element, after, rfl, ⟨rfl, first, deed, between, rfl, here, none'⟩, later⟩ := completed
  refine ⟨first, deed, between ++ .completed :: after, by simp, here, fun other member => ?_⟩
  rcases List.mem_append.mp member with member | member
  · exact none' other member
  · rcases List.mem_cons.mp member with rfl | member
    · exact id
    · exact later other member

end Deeds

variable {watcher : Bool} {s t : Loop}

/-- The main thread goes on, takes no flag and records nothing. -/
structure Quiet (s t : Loop) : Prop where
  sighup : t.sighup = s.sighup
  watch : t.watch = s.watch
  handling : t.handling = s.handling
  deeds : t.deeds = s.deeds

theorem Kept.moved (kept : Kept watcher s) (quiet : Quiet s t)
    (wakes : s.sighup = true ∨ 0 < s.handling → t.reload = true ∨ t.point = .poppingSighup)
    (serves : s.point.serves ↔ t.point.serves) (watches : s.point.watches → t.point.watches)
    (pops : Completed s.deeds → t.reload = true ∨ t.point.pops)
    (holds : s.point.Holds s.deeds → t.point.Holds s.deeds)
    (forgiven : t.point = .calling .sighup → watcher = true → Forgiven s.deeds) : Kept watcher t where
  sighup := by rw [quiet.deeds, quiet.sighup, quiet.handling, kept.sighup]
  watch := by rw [quiet.deeds, quiet.watch, kept.watch]
  wakes := by rwa [quiet.sighup, quiet.handling]
  waits := fun open' => by
    rw [quiet.deeds] at open' ⊢
    exact (kept.waits open').imp id serves.mp
  asked := fun open' => by
    rw [quiet.deeds] at open' ⊢
    exact (kept.asked open').imp id watches
  completed := fun open' => by
    rw [quiet.deeds] at open'
    exact pops open'
  holds := by
    rw [quiet.deeds]
    exact holds kept.holds
  served := fun taken => by
    rw [quiet.deeds] at taken
    exact serves.mp (kept.served taken)
  forgiven := by rwa [quiet.deeds]
  founded := by
    rw [quiet.deeds]
    exact kept.founded

/-- One more deed, and a reconcile only where it is founded. -/
theorem Kept.founded_append (kept : Kept watcher s) (deed : Deed)
    (new : ∀ reason, deed = .began reason → Founded watcher s.deeds reason) (before : List Deed) (reason : Reason)
    (after : List Deed) (split : s.deeds ++ [deed] = before ++ .began reason :: after) :
    Founded watcher before reason := by
  rcases List.eq_nil_or_concat after with rfl | ⟨rest, last, rfl⟩
  · obtain ⟨rfl, same⟩ := List.append_inj' split rfl
    exact new reason (List.singleton_inj.mp same)
  · rw [List.concat_eq_append, ← List.cons_append, ← List.append_assoc] at split
    exact kept.founded before reason rest (List.append_inj' split rfl).1

theorem Kept.popsSighup (kept : Kept watcher s) (here : s.point = .poppingSighup) (idle : s.handling = 0) :
    Kept watcher { s with
      sighup := false, point := .poppingWatch s.sighup, deeds := s.deeds ++ taken .sighup s.sighup } := by
  have open' := kept.sighup
  rw [idle] at open'
  cases flag : s.sighup with
  | true =>
      have untaken : Untaken .sighup s.deeds := open'.mpr (Or.inl flag)
      exact {
        sighup := by simp [taken, untaken_append, raises, idle]
        watch := by simp [taken, untaken_append, raises, kept.watch]
        wakes := by simp [idle]
        waits := fun _ => Or.inr rfl
        asked := fun asked => by
          have before : Asked s.deeds := by simpa [taken, asked_append, Deed.Begins] using asked
          have flagged := kept.asked before
          rw [here] at flagged
          simpa [taken, untaken_append, raises, Point.watches] using flagged
        completed := fun _ => Or.inr trivial
        holds := fun _ => by simp [taken, taken_append, untaken]
        served := fun _ => rfl
        forgiven := fun calls => by cases calls
        founded := kept.founded_append (.took .sighup) fun reason same => by cases same }
  | false =>
      refine kept.moved ⟨flag.symm, rfl, rfl, List.append_nil _⟩ ?_ ?_ ?_ ?_ ?_ ?_
      · simp [flag, idle]
      · simp [here, Point.serves]
      · simp [here, Point.watches]
      · exact fun _ => Or.inr trivial
      · exact fun _ none' => by cases none'
      · exact fun calls => by cases calls

theorem Kept.popsWatch {popped : Bool} (kept : Kept watcher s) (here : s.point = .poppingWatch popped) :
    Kept watcher { s with
      watch := false, point := .choosing popped s.watch, deeds := s.deeds ++ taken .watch s.watch } := by
  have serves : s.point.serves ↔ popped = true := by rw [here]; rfl
  have holds := kept.holds
  have wakes := kept.wakes
  rw [here] at holds wakes
  cases flag : s.watch with
  | true =>
      have untaken : Untaken .watch s.deeds := kept.watch.mpr flag
      exact {
        sighup := by simp [taken, untaken_append, raises, kept.sighup]
        watch := by simp [taken, untaken_append, raises]
        wakes := fun flags => Or.inl ((wakes flags).resolve_right (by simp))
        waits := fun waits => by
          have before : Waits s.deeds := by simpa [taken, waits_append] using waits
          exact (kept.waits before).imp (fun same => by simpa [taken, untaken_append, raises] using same) serves.mp
        asked := fun _ => Or.inr rfl
        completed := fun _ => Or.inr rfl
        holds := ⟨fun sighup => by simpa [taken, taken_append, Deed.Begins] using holds sighup,
          fun _ => by simp [taken, taken_append, untaken]⟩
        served := fun open' => serves.mp (kept.served (by simpa [taken, taken_append, Deed.Begins] using open'))
        forgiven := fun calls => by cases calls
        founded := kept.founded_append (.took .watch) fun reason same => by cases same }
  | false =>
      have none' : ¬ Asked s.deeds := fun asked => by
        have flagged := kept.asked asked
        rw [here, kept.watch, flag] at flagged
        simp [Point.watches] at flagged
      refine kept.moved ⟨rfl, flag.symm, rfl, List.append_nil _⟩ ?_ ?_ ?_ ?_ ?_ ?_
      · exact fun flags => Or.inl ((wakes flags).resolve_right (by simp))
      · exact serves
      · simp [here, Point.watches]
      · exact fun completed => absurd completed.asked none'
      · exact fun _ => ⟨holds, fun watched => by cases watched⟩
      · exact fun calls => by cases calls

theorem Kept.forgives (kept : Kept watcher s) (here : s.point = .forgiving) :
    Kept watcher { s with point := .calling .sighup, deeds := s.deeds ++ [.forgave] } := by
  have taken : Taken .sighup s.deeds := by
    have holds := kept.holds
    rwa [here] at holds
  have wakes := kept.wakes
  rw [here] at wakes
  exact {
    sighup := by simp [untaken_append, raises, kept.sighup]
    watch := by simp [untaken_append, raises, kept.watch]
    wakes := fun flags => Or.inl ((wakes flags).resolve_right (by simp))
    waits := fun _ => Or.inr rfl
    asked := fun _ => Or.inr trivial
    completed := fun _ => Or.inr trivial
    holds := by simpa [Point.Holds, taken_append, Deed.Begins] using taken
    served := fun _ => rfl
    forgiven := fun _ _ => by simp [forgiven_append]
    founded := kept.founded_append .forgave fun reason same => by cases same }

theorem Kept.begins {reason : Reason} (kept : Kept watcher s) (here : s.point = .calling reason) :
    Kept watcher { s with point := .reconciling, deeds := s.deeds ++ [.began reason] } := by
  have taken : Taken reason s.deeds := by
    have holds := kept.holds
    rwa [here] at holds
  have wakes := kept.wakes
  rw [here] at wakes
  have served : Taken .sighup s.deeds → reason = .sighup := fun open' => by
    have serves := kept.served open'
    rwa [here] at serves
  exact {
    sighup := by simp [untaken_append, raises, kept.sighup]
    watch := by simp [untaken_append, raises, kept.watch]
    wakes := fun flags => Or.inl ((wakes flags).resolve_right (by simp))
    waits := fun waits => by
      obtain ⟨before, other⟩ : Waits s.deeds ∧ reason ≠ .sighup := by simpa [waits_append] using waits
      have untaken := (kept.waits before).resolve_right (by rw [here]; exact other)
      exact Or.inl (by simpa [untaken_append, raises] using untaken)
    asked := fun asked => by simp [asked_append, Deed.Begins] at asked
    completed := fun completed => by simp [completed_append, Deed.Begins] at completed
    holds := trivial
    served := fun open' => by simp [taken_append, Deed.Begins] at open'
    forgiven := fun calls => by cases calls
    founded := kept.founded_append (.began reason) fun other same => by
      obtain rfl := Deed.began.inj same
      exact ⟨taken, served, fun sighup => by
        subst sighup
        exact kept.forgiven here⟩ }

theorem Kept.chooses {popped watched : Bool} {now : ℚ} (kept : Kept watcher s)
    (here : s.point = .choosing popped watched) (stepped : turn watcher now s = some t) : Kept watcher t := by
  have wakes := kept.wakes
  have completed := kept.completed
  have holds := kept.holds
  rw [here] at wakes completed holds
  have awake : s.sighup = true ∨ 0 < s.handling → s.reload = true := fun flags =>
    (wakes flags).resolve_right (by simp)
  simp only [turn, here] at stepped
  cases popped with
  | false =>
      cases watched with
      | false =>
          obtain rfl : { s with point := .stopping } = t := by simpa using stepped
          exact kept.moved ⟨rfl, rfl, rfl, rfl⟩ (fun flags => Or.inl (awake flags)) (by simp [here, Point.serves])
            (by simp [here, Point.watches]) (fun open' => Or.inl ((completed open').resolve_right Bool.false_ne_true))
            (fun _ => trivial) (fun calls => by cases calls)
      | true =>
          obtain rfl : { s with point := .calling .watch } = t := by simpa using stepped
          exact kept.moved ⟨rfl, rfl, rfl, rfl⟩ (fun flags => Or.inl (awake flags)) (by simp [here, Point.serves])
            (fun _ => trivial) (fun _ => Or.inr trivial) (fun _ => holds.2 rfl) (fun calls => by cases calls)
  | true =>
      cases watcher with
      | false =>
          obtain rfl : { s with point := .calling .sighup } = t := by simpa using stepped
          exact kept.moved ⟨rfl, rfl, rfl, rfl⟩ (fun flags => Or.inl (awake flags)) (by simp [here, Point.serves])
            (fun _ => trivial) (fun _ => Or.inr trivial) (fun _ => holds.1 rfl) (fun _ none' => by cases none')
      | true =>
          obtain rfl : { s with point := .forgiving } = t := by simpa using stepped
          exact kept.moved ⟨rfl, rfl, rfl, rfl⟩ (fun flags => Or.inl (awake flags)) (by simp [here, Point.serves])
            (fun _ => trivial) (fun _ => Or.inr trivial) (fun _ => holds.1 rfl) (fun calls => by cases calls)

/-- Nothing is popped or on its way. -/
def Point.Idle : Point → Prop
  | .poppingSighup => False
  | .poppingWatch _ => False
  | .choosing _ _ => False
  | .forgiving => False
  | .calling _ => False
  | _ => True

theorem Point.Idle.not_pops {point : Point} (idle : point.Idle) : ¬ point.pops ∧ ¬ point.watches := by
  cases point <;> first | exact ⟨id, id⟩ | exact False.elim idle

theorem Point.Idle.not_serves {point : Point} (idle : point.Idle) : ¬ point.serves := by
  cases point <;> first | exact id | exact False.elim idle

theorem Point.Idle.holds {point : Point} (idle : point.Idle) (deeds : List Deed) : point.Holds deeds := by
  cases point <;> trivial

/-- The main thread goes on where nothing is popped or on its way. -/
theorem Kept.idles (kept : Kept watcher s) (quiet : Quiet s t) (here : s.point.Idle)
    (there : t.reload = s.reload ∧ t.point.Idle ∨ t.point = .poppingSighup) : Kept watcher t := by
  have awake : s.sighup = true ∨ 0 < s.handling → s.reload = true := fun flags =>
    (kept.wakes flags).resolve_right fun pops => by
      rw [pops] at here
      exact here
  have completed : Completed s.deeds → s.reload = true := fun open' =>
    (kept.completed open').resolve_right here.not_pops.1
  rcases there with ⟨same, idle⟩ | pops
  · exact kept.moved quiet (fun flags => Or.inl (same.trans (awake flags)))
      (iff_of_false here.not_serves idle.not_serves) (fun watches => absurd watches here.not_pops.2)
      (fun open' => Or.inl (same.trans (completed open'))) (fun _ => idle.holds _)
      (fun calls => by rw [calls] at idle; cases idle)
  · exact kept.moved quiet (fun _ => Or.inr pops) (iff_of_false here.not_serves (by rw [pops]; exact id))
      (fun watches => absurd watches here.not_pops.2) (fun _ => Or.inr (by rw [pops]; trivial))
      (fun _ => by rw [pops]; trivial) (fun calls => by rw [pops] at calls; cases calls)

theorem Kept.turn {now : ℚ} (kept : Kept watcher s) (idle : s.handling = 0)
    (stepped : Supervise.turn watcher now s = some t) : Kept watcher t := by
  cases here : s.point with
  | starting =>
      obtain rfl : { s with point := .waiting } = t := by simpa [Supervise.turn, here] using stepped
      exact kept.idles ⟨rfl, rfl, rfl, rfl⟩ (by rw [here]; trivial) (Or.inl ⟨rfl, trivial⟩)
  | waiting =>
      obtain rfl : { s with point := .readingReload } = t := by simpa [Supervise.turn, here] using stepped
      exact kept.idles ⟨rfl, rfl, rfl, rfl⟩ (by rw [here]; trivial) (Or.inl ⟨rfl, trivial⟩)
  | readingReload =>
      simp only [Supervise.turn, here, Option.some_inj] at stepped
      subst stepped
      refine kept.idles ⟨rfl, rfl, rfl, rfl⟩ (by rw [here]; trivial) (Or.inl ⟨rfl, ?_⟩)
      show (if s.reload then Point.readingStop else Point.stopping).Idle
      split_ifs <;> trivial
  | readingStop =>
      simp only [Supervise.turn, here, Option.some_inj] at stepped
      subst stepped
      refine kept.idles ⟨rfl, rfl, rfl, rfl⟩ (by rw [here]; trivial) (Or.inl ⟨rfl, ?_⟩)
      show (if s.stop then Point.stopping else Point.clearing).Idle
      split_ifs <;> trivial
  | clearing =>
      simp only [Supervise.turn, here, Option.some_inj] at stepped
      subst stepped
      exact kept.idles ⟨rfl, rfl, rfl, rfl⟩ (by rw [here]; trivial) (Or.inr rfl)
  | poppingSighup =>
      simp only [Supervise.turn, here, Option.some_inj] at stepped
      exact stepped ▸ kept.popsSighup here idle
  | poppingWatch popped =>
      simp only [Supervise.turn, here, Option.some_inj] at stepped
      exact stepped ▸ kept.popsWatch here
  | choosing popped watched => exact kept.chooses here stepped
  | forgiving =>
      simp only [Supervise.turn, here, Option.some_inj] at stepped
      exact stepped ▸ kept.forgives here
  | calling reason =>
      simp only [Supervise.turn, here, Option.some_inj] at stepped
      exact stepped ▸ kept.begins here
  | reconciling =>
      simp only [Supervise.turn, here, Option.some_inj] at stepped
      subst stepped
      exact kept.idles ⟨rfl, rfl, rfl, rfl⟩ (by rw [here]; trivial) (Or.inl ⟨rfl, trivial⟩)
  | stopping =>
      simp only [Supervise.turn, here] at stepped
      split at stepped
      · split at stepped
        · obtain rfl := Option.some_inj.mp stepped
          exact kept.idles ⟨rfl, rfl, rfl, rfl⟩ (by rw [here]; trivial) (Or.inl ⟨rfl, trivial⟩)
        · obtain rfl := Option.some_inj.mp stepped
          refine kept.idles ⟨rfl, rfl, rfl, rfl⟩ (by rw [here]; trivial) (Or.inl ⟨rfl, ?_⟩)
          show (if _ then Point.ended else Point.waiting).Idle
          split_ifs <;> trivial
      · obtain rfl := Option.some_inj.mp stepped
        exact kept.idles ⟨rfl, rfl, rfl, rfl⟩ (by rw [here]; trivial) (Or.inl ⟨rfl, trivial⟩)
  | ended =>
      simp only [Supervise.turn, here] at stepped
      cases stepped

theorem Point.Holds.append {point : Point} {deeds : List Deed} {deed : Deed} (holds : point.Holds deeds)
    (beside : ¬ deed.Begins) : point.Holds (deeds ++ [deed]) := by
  have kept : ∀ reason, Taken reason deeds → Taken reason (deeds ++ [deed]) := fun reason taken =>
    taken_append.mpr (Or.inr ⟨taken, beside⟩)
  cases point with
  | poppingWatch popped => exact fun sighup => kept _ (holds sighup)
  | choosing popped watched => exact ⟨fun sighup => kept _ (holds.1 sighup), fun flag => kept _ (holds.2 flag)⟩
  | forgiving => exact kept _ holds
  | calling reason => exact kept _ holds
  | _ => trivial

theorem Kept.step {action : Action} (kept : Kept watcher s) (stepped : Supervise.step watcher s action = some t) :
    Kept watcher t := by
  cases action with
  | hup =>
      obtain rfl := Option.some_inj.mp stepped
      exact {
        sighup := by simp [untaken_append, raises]
        watch := by simp [untaken_append, raises, kept.watch]
        wakes := fun _ => Or.inl rfl
        waits := fun _ => Or.inl (by simp [untaken_append, raises])
        asked := fun asked => by
          have before : Asked s.deeds := by simpa [asked_append, Deed.Begins] using asked
          exact (kept.asked before).imp (fun same => by simpa [untaken_append, raises] using same) id
        completed := fun _ => Or.inl rfl
        holds := kept.holds.append id
        served := fun taken => kept.served (by simpa [taken_append, Deed.Begins] using taken)
        forgiven := fun calls on => by simpa [forgiven_append, Deed.Begins] using kept.forgiven calls on
        founded := kept.founded_append .delivered fun reason same => by cases same }
  | handled =>
      simp only [Supervise.step] at stepped
      split_ifs at stepped with idle
      obtain rfl := Option.some_inj.mp stepped
      have handling : 0 < s.handling := Nat.pos_of_ne_zero idle
      exact { kept with
        sighup := kept.sighup.trans (iff_of_true (Or.inr handling) (Or.inl rfl))
        wakes := fun _ => kept.wakes (Or.inr handling) }
  | stop =>
      obtain rfl := Option.some_inj.mp stepped
      exact { kept with }
  | request =>
      simp only [Supervise.step] at stepped
      split_ifs at stepped
      obtain rfl := Option.some_inj.mp stepped
      exact {
        sighup := by simp [untaken_append, raises, kept.sighup]
        watch := by simp [untaken_append, raises]
        wakes := kept.wakes
        waits := fun waits => by
          have before : Waits s.deeds := by simpa [waits_append] using waits
          exact (kept.waits before).imp (fun same => by simpa [untaken_append, raises] using same) id
        asked := fun _ => Or.inl (by simp [untaken_append, raises])
        completed := fun open' => kept.completed (by simpa [completed_append, Deed.Begins] using open')
        holds := kept.holds.append id
        served := fun taken => kept.served (by simpa [taken_append, Deed.Begins] using taken)
        forgiven := fun calls on => by simpa [forgiven_append, Deed.Begins] using kept.forgiven calls on
        founded := kept.founded_append .requested fun reason same => by cases same }
  | complete =>
      simp only [Supervise.step] at stepped
      split_ifs at stepped
      obtain rfl := Option.some_inj.mp stepped
      exact {
        sighup := by simp [untaken_append, raises, kept.sighup]
        watch := by simp [untaken_append, raises, kept.watch]
        wakes := fun _ => Or.inl rfl
        waits := fun waits => by
          have before : Waits s.deeds := by simpa [waits_append] using waits
          exact (kept.waits before).imp (fun same => by simpa [untaken_append, raises] using same) id
        asked := fun asked => by
          have before : Asked s.deeds := by simpa [asked_append, Deed.Begins] using asked
          exact (kept.asked before).imp (fun same => by simpa [untaken_append, raises] using same) id
        completed := fun _ => Or.inl rfl
        holds := kept.holds.append id
        served := fun taken => kept.served (by simpa [taken_append, Deed.Begins] using taken)
        forgiven := fun calls on => by simpa [forgiven_append, Deed.Begins] using kept.forgiven calls on
        founded := kept.founded_append .completed fun reason same => by cases same }
  | main now =>
      simp only [Supervise.step] at stepped
      split_ifs at stepped with idle
      exact kept.turn idle stepped
  | exits =>
      simp only [Supervise.step] at stepped
      split_ifs at stepped with here
      obtain rfl := Option.some_inj.mp stepped
      exact kept.idles ⟨rfl, rfl, rfl, rfl⟩ (by rw [here.2]; trivial) (Or.inl ⟨rfl, trivial⟩)
  | raises =>
      simp only [Supervise.step] at stepped
      split_ifs at stepped with here
      obtain rfl := Option.some_inj.mp stepped
      exact kept.idles ⟨rfl, rfl, rfl, rfl⟩ (by rw [here.2]; trivial) (Or.inl ⟨rfl, trivial⟩)

theorem Kept.run {actions : List Action} (kept : Kept watcher s)
    (ran : actions.foldlM (Supervise.step watcher) s = some t) : Kept watcher t := by
  induction actions generalizing s with
  | nil =>
      obtain rfl : s = t := by simpa using ran
      exact kept
  | cons action actions ih =>
      rw [List.foldlM_cons] at ran
      obtain ⟨next, stepped, ran⟩ := Option.bind_eq_some_iff.mp ran
      exact ih (kept.step stepped) ran

/-! ### Serving a SIGHUP -/

/-- The SIGHUP before these deeds was taken, and the reconcile that began next was for SIGHUP, behind a forgive
of the watcher. -/
def Served (watcher : Bool) (after : List Deed) : Prop :=
  ∃ waits readied rest, after = waits ++ .took .sighup :: (readied ++ .began .sighup :: rest) ∧
    .took .sighup ∉ waits ∧ (∀ deed ∈ readied, ¬ deed.Begins) ∧ (watcher = true → .forgave ∈ readied)

theorem Served.append {after : List Deed} (served : Served watcher after) (deeds : List Deed) :
    Served watcher (after ++ deeds) := by
  obtain ⟨waits, readied, rest, rfl, first, beside, forgave⟩ := served
  exact ⟨waits, readied, rest ++ deeds, by simp, first, beside, forgave⟩

/-- What stands behind the last mark of a list stands behind each. -/
theorem mem_behind {mark element : Deed} {first rest before after : List Deed}
    (same : first ++ element :: rest = before ++ mark :: after) (last : mark ∉ rest) (apart : element ≠ mark) :
    element ∈ after := by
  rcases List.append_eq_append_iff.mp same with ⟨more, rfl, split⟩ | ⟨more, rfl, split⟩
  · cases more with
    | nil => exact absurd (List.cons.inj split).1 apart
    | cons other more =>
        refine absurd ?_ last
        rw [(List.cons.inj split).2]
        exact List.mem_append_right _ List.mem_cons_self
  · cases more with
    | nil => exact absurd (List.cons.inj split).1.symm apart
    | cons other more =>
        rw [(List.cons.inj split).2]
        exact List.mem_append_right _ List.mem_cons_self

/-- The first reconcile behind a SIGHUP that was taken is for SIGHUP, behind a forgive. -/
theorem Kept.serves {before waits readied rest : List Deed} {reason : Reason} (kept : Kept watcher s)
    (split : s.deeds = before ++ .delivered :: (waits ++ .took .sighup :: (readied ++ .began reason :: rest)))
    (first : .took .sighup ∉ waits) (beside : ∀ deed ∈ readied, ¬ deed.Begins) :
    reason = .sighup ∧ (watcher = true → .forgave ∈ readied) := by
  have founded := kept.founded (before ++ .delivered :: (waits ++ .took .sighup :: readied)) reason rest
    (by rw [split]; simp)
  have taken : Taken .sighup (before ++ .delivered :: (waits ++ .took .sighup :: readied)) :=
    ⟨before ++ .delivered :: waits, _, readied, by simp,
      ⟨rfl, before, _, waits, rfl, rfl, fun later member same => first (same ▸ member)⟩, beside⟩
  refine ⟨founded.sighup taken, fun on => ?_⟩
  obtain ⟨front, _, tail, same, rfl, later⟩ := founded.forgiven (founded.sighup taken) on
  have split : front ++ .forgave :: tail = (before ++ .delivered :: waits) ++ .took .sighup :: readied := by
    rw [← same]
    simp
  exact mem_behind split (fun member => later _ member (Or.inr rfl)) (by simp)

end OscmixDesk.Supervise
