/-
**Reload requests are served.**

From a SIGHUP to its reconcile it is a bounded number of steps of the main thread, whatever interleaves with
them: `Point.far` of them where nobody has taken it, `Point.near` where the main thread has. Every step of the
main thread comes nearer (`Kept.nears`, `Kept.readies`), and nothing beside it goes away (`step_beside`). The same
holds of a turn that finds its flags up (`Bound`).
-/

import OscmixDesk.Proof.Reloads

namespace OscmixDesk.Supervise

open Traces

variable {watcher : Bool} {s t : Loop}

/-! ### Distances -/

/-- Steps of the main thread to the reconcile of a SIGHUP that nobody has taken. -/
def Point.far : Point → ℕ
  | .poppingSighup => 5
  | .clearing => 6
  | .readingStop => 7
  | .readingReload => 8
  | .waiting => 9
  | .stopping => 10
  | .starting => 10
  | .reconciling => 11
  | .calling _ => 12
  | .forgiving => 13
  | .choosing _ _ => 14
  | .poppingWatch _ => 15
  | .ended => 0

/-- And of one that it has taken. -/
def Point.near : Point → ℕ
  | .poppingWatch _ => 4
  | .choosing _ _ => 3
  | .forgiving => 2
  | .calling _ => 1
  | _ => 0

theorem Point.far_pos {point : Point} (going : point ≠ .ended) : 0 < point.far := by
  cases point with
  | ended => exact absurd rfl going
  | _ => simp [Point.far]

theorem Point.near_pos {point : Point} (serves : point.serves) : 0 < point.near := by
  cases point <;> first | exact False.elim serves | simp [Point.near]

theorem Point.far_le (point : Point) : point.far ≤ 15 := by
  cases point <;> simp [Point.far]

theorem Point.near_le (point : Point) : point.near ≤ 15 := by
  cases point <;> simp [Point.near]

/-- The SIGHUP is taken, with no reconcile since. -/
def TakenUp (after : List Deed) : Prop :=
  ∃ waits readied, after = waits ++ .took .sighup :: readied ∧ .took .sighup ∉ waits ∧
    ∀ deed ∈ readied, ¬ deed.Begins

/-- The SIGHUP is served, or will be in so many steps of the main thread. -/
structure Within (watcher : Bool) (before : List Deed) (steps : ℕ) (s : Loop) : Prop where
  going : s.point ≠ .ended
  unstopped : s.stop = false
  here : ∃ after, s.deeds = before ++ .delivered :: after ∧ (Served watcher after
    ∨ .took .sighup ∉ after ∧ s.point.far ≤ steps ∨ TakenUp after ∧ s.point.near ≤ steps)

/-- Beside the main thread, nothing is taken and no reconcile begins. -/
theorem Within.beside {before : List Deed} {steps : ℕ} {more : List Deed} (within : Within watcher before steps s)
    (point : t.point = s.point) (stop : t.stop = s.stop) (deeds : t.deeds = s.deeds ++ more)
    (beside : ∀ deed ∈ more, ¬ deed.Begins ∧ deed ≠ .took .sighup) : Within watcher before steps t := by
  obtain ⟨going, unstopped, after, split, here⟩ := within
  refine ⟨point ▸ going, stop.trans unstopped, after ++ more, by rw [deeds, split]; simp, ?_⟩
  rw [point]
  rcases here with served | ⟨untaken, far⟩ | ⟨⟨waits, readied, rfl, first, none'⟩, near⟩
  · exact Or.inl (served.append more)
  · refine Or.inr (Or.inl ⟨fun member => ?_, far⟩)
    rcases List.mem_append.mp member with member | member
    · exact untaken member
    · exact (beside _ member).2 rfl
  · refine Or.inr (Or.inr ⟨⟨waits, readied ++ more, by simp, first, fun deed member => ?_⟩, near⟩)
    rcases List.mem_append.mp member with member | member
    · exact none' deed member
    · exact (beside deed member).1

/-- With no stop requested the main thread goes on, and records behind what it has recorded. -/
theorem turn_goes {now : ℚ} (unstopped : s.stop = false) (stepped : turn watcher now s = some t) :
    t.point ≠ .ended ∧ t.stop = false ∧ ∃ more, t.deeds = s.deeds ++ more := by
  have same : ∃ more, s.deeds = s.deeds ++ more := ⟨[], (List.append_nil _).symm⟩
  cases here : s.point with
  | poppingSighup =>
      simp only [turn, here, Option.some_inj] at stepped
      subst stepped
      exact ⟨by simp, unstopped, _, rfl⟩
  | poppingWatch popped =>
      simp only [turn, here, Option.some_inj] at stepped
      subst stepped
      exact ⟨by simp, unstopped, _, rfl⟩
  | forgiving =>
      simp only [turn, here, Option.some_inj] at stepped
      subst stepped
      exact ⟨by simp, unstopped, _, rfl⟩
  | calling reason =>
      simp only [turn, here, Option.some_inj] at stepped
      subst stepped
      exact ⟨by simp, unstopped, _, rfl⟩
  | choosing popped watched =>
      simp only [turn, here] at stepped
      split_ifs at stepped <;> obtain rfl := Option.some_inj.mp stepped <;> exact ⟨by simp, unstopped, same⟩
  | ended =>
      simp only [turn, here] at stepped
      cases stepped
  | readingReload =>
      simp only [turn, here, Option.some_inj] at stepped
      subst stepped
      exact ⟨by cases s.reload <;> simp, unstopped, same⟩
  | readingStop =>
      simp only [turn, here, Option.some_inj] at stepped
      subst stepped
      exact ⟨by cases s.stop <;> simp, unstopped, same⟩
  | stopping =>
      obtain rfl : { s with point := .waiting } = t := by simpa [turn, here, unstopped] using stepped
      exact ⟨by simp, unstopped, same⟩
  | _ =>
      simp only [turn, here, Option.some_inj] at stepped
      subst stepped
      exact ⟨by simp, unstopped, same⟩

/-- What a step of the main thread does for a SIGHUP: it comes nearer, or takes it. -/
structure Nearer (s t : Loop) (more : List Deed) (distance : Point → ℕ) : Prop where
  deeds : t.deeds = s.deeds ++ more
  nearer : distance t.point < s.point.far

/-- A step of the main thread on the way from a SIGHUP that nobody has taken. -/
theorem Kept.nears {now : ℚ} {before after : List Deed} (kept : Kept watcher s) (idle : s.handling = 0)
    (stepped : Supervise.turn watcher now s = some t) (unstopped : s.stop = false)
    (split : s.deeds = before ++ .delivered :: after) (untaken : .took .sighup ∉ after) :
    (∃ more, .took .sighup ∉ more ∧ Nearer s t more Point.far) ∨ Nearer s t [.took .sighup] Point.near := by
  have open' : Untaken .sighup s.deeds :=
    ⟨before, _, after, split, rfl, fun later member same => untaken (same ▸ member)⟩
  have flag : s.sighup = true := (kept.sighup.mp open').resolve_right (by omega)
  have quiet {t : Loop} (deeds : t.deeds = s.deeds) (nearer : t.point.far < s.point.far) :
      ∃ more, .took .sighup ∉ more ∧ Nearer s t more Point.far :=
    ⟨[], List.not_mem_nil, deeds.trans (List.append_nil _).symm, nearer⟩
  cases here : s.point with
  | starting =>
      obtain rfl : { s with point := .waiting } = t := by simpa [Supervise.turn, here] using stepped
      exact Or.inl (quiet rfl (by simp [here, Point.far]))
  | waiting =>
      obtain rfl : { s with point := .readingReload } = t := by simpa [Supervise.turn, here] using stepped
      exact Or.inl (quiet rfl (by simp [here, Point.far]))
  | readingReload =>
      have awake : s.reload = true := (kept.wakes (Or.inl flag)).resolve_right (by simp [here])
      obtain rfl : { s with point := .readingStop } = t := by simpa [Supervise.turn, here, awake] using stepped
      exact Or.inl (quiet rfl (by simp [here, Point.far]))
  | readingStop =>
      obtain rfl : { s with point := .clearing } = t := by simpa [Supervise.turn, here, unstopped] using stepped
      exact Or.inl (quiet rfl (by simp [here, Point.far]))
  | clearing =>
      simp only [Supervise.turn, here, Option.some_inj] at stepped
      subst stepped
      exact Or.inl (quiet rfl (by simp [here, Point.far]))
  | poppingSighup =>
      simp only [Supervise.turn, here, Option.some_inj, flag] at stepped
      subst stepped
      exact Or.inr ⟨rfl, by simp [here, Point.far, Point.near]⟩
  | poppingWatch popped =>
      simp only [Supervise.turn, here, Option.some_inj] at stepped
      subst stepped
      exact Or.inl ⟨_, by cases s.watch <;> simp [taken], rfl, by simp [here, Point.far]⟩
  | choosing popped watched =>
      simp only [Supervise.turn, here] at stepped
      split_ifs at stepped
      · obtain rfl := Option.some_inj.mp stepped
        exact Or.inl (quiet rfl (by simp [here, Point.far]))
      · obtain rfl := Option.some_inj.mp stepped
        exact Or.inl (quiet rfl (by simp [here, Point.far]))
      · obtain rfl := Option.some_inj.mp stepped
        exact Or.inl (quiet rfl (by simp [here, Point.far]))
      · obtain rfl := Option.some_inj.mp stepped
        exact Or.inl (quiet rfl (by simp [here, Point.far]))
  | forgiving =>
      simp only [Supervise.turn, here, Option.some_inj] at stepped
      subst stepped
      exact Or.inl ⟨_, by simp, rfl, by simp [here, Point.far]⟩
  | calling reason =>
      simp only [Supervise.turn, here, Option.some_inj] at stepped
      subst stepped
      exact Or.inl ⟨_, by simp, rfl, by simp [here, Point.far]⟩
  | reconciling =>
      simp only [Supervise.turn, here, Option.some_inj] at stepped
      subst stepped
      exact Or.inl (quiet rfl (by simp [here, Point.far]))
  | stopping =>
      obtain rfl : { s with point := .waiting } = t := by simpa [Supervise.turn, here, unstopped] using stepped
      exact Or.inl (quiet rfl (by simp [here, Point.far]))
  | ended =>
      simp only [Supervise.turn, here] at stepped
      cases stepped

/-- A step of the main thread on the way from a SIGHUP that it has taken. -/
theorem Kept.readies {now : ℚ} (kept : Kept watcher s) (stepped : Supervise.turn watcher now s = some t)
    (taken : Taken .sighup s.deeds) :
    ∃ more, t.deeds = s.deeds ++ more
      ∧ ((∀ deed ∈ more, ¬ deed.Begins) ∧ t.point.near < s.point.near
        ∨ 0 < s.point.near ∧ ∃ reason, more = [.began reason]) := by
  have serves := kept.served taken
  cases here : s.point with
  | poppingWatch popped =>
      simp only [Supervise.turn, here, Option.some_inj] at stepped
      subst stepped
      exact ⟨_, rfl, Or.inl ⟨by cases s.watch <;> simp [Supervise.taken, Deed.Begins],
        by simp [Point.near]⟩⟩
  | choosing popped watched =>
      rw [here] at serves
      obtain rfl : popped = true := serves
      simp only [Supervise.turn, here, Bool.not_true, Bool.false_and, Bool.false_eq_true, if_false,
        Option.some_inj] at stepped
      subst stepped
      exact ⟨[], (List.append_nil _).symm,
        Or.inl ⟨fun deed member => absurd member List.not_mem_nil, by cases watcher <;> simp [Point.near]⟩⟩
  | forgiving =>
      simp only [Supervise.turn, here, Option.some_inj] at stepped
      subst stepped
      exact ⟨_, rfl, Or.inl ⟨by simp [Deed.Begins], by simp [Point.near]⟩⟩
  | calling reason =>
      simp only [Supervise.turn, here, Option.some_inj] at stepped
      subst stepped
      exact ⟨_, rfl, Or.inr ⟨by simp [Point.near], reason, rfl⟩⟩
  | _ =>
      rw [here] at serves
      cases serves

theorem Within.taken {before after : List Deed} (split : s.deeds = before ++ .delivered :: after)
    (up : TakenUp after) : Taken .sighup s.deeds := by
  obtain ⟨waits, readied, rfl, first, beside⟩ := up
  exact ⟨before ++ .delivered :: waits, _, readied, by rw [split]; simp,
    ⟨rfl, before, _, waits, rfl, rfl, fun later member same => first (same ▸ member)⟩, beside⟩

/-- Every step of the main thread comes nearer. -/
theorem Within.main {now : ℚ} {before : List Deed} {steps : ℕ} (kept : Kept watcher s) (kept' : Kept watcher t)
    (within : Within watcher before (steps + 1) s) (idle : s.handling = 0)
    (stepped : Supervise.turn watcher now s = some t) : Within watcher before steps t := by
  obtain ⟨-, unstopped, after, split, here⟩ := within
  obtain ⟨going, still, goes⟩ := turn_goes unstopped stepped
  refine ⟨going, still, ?_⟩
  rcases here with served | ⟨untaken, far⟩ | ⟨up, near⟩
  · obtain ⟨more, deeds⟩ := goes
    exact ⟨after ++ more, by rw [deeds, split]; simp, Or.inl (served.append more)⟩
  · rcases kept.nears idle stepped unstopped split untaken with ⟨more, none', nearer⟩ | nearer
    · refine ⟨after ++ more, by rw [nearer.deeds, split]; simp, ?_⟩
      refine Or.inr (Or.inl ⟨fun member => ?_, by have := nearer.nearer; omega⟩)
      exact (List.mem_append.mp member).elim untaken none'
    · refine ⟨after ++ [.took .sighup], by rw [nearer.deeds, split]; simp, ?_⟩
      exact Or.inr (Or.inr ⟨⟨after, [], rfl, untaken, fun deed member => absurd member List.not_mem_nil⟩,
        by have := nearer.nearer; omega⟩)
  · obtain ⟨more, deeds, next⟩ := kept.readies stepped (Within.taken split up)
    refine ⟨after ++ more, by rw [deeds, split]; simp, ?_⟩
    obtain ⟨waits, readied, rfl, first, beside⟩ := up
    rcases next with ⟨none', nearer⟩ | ⟨_, reason, rfl⟩
    · refine Or.inr (Or.inr ⟨⟨waits, readied ++ more, by simp, first, fun deed member => ?_⟩, by omega⟩)
      exact (List.mem_append.mp member).elim (beside deed) (none' deed)
    · have split' : t.deeds
          = before ++ .delivered :: (waits ++ .took .sighup :: (readied ++ .began reason :: [])) := by
        rw [deeds, split]
        simp
      obtain ⟨rfl, forgave⟩ := kept'.serves split' first beside
      exact Or.inl ⟨waits, readied, [], by simp, first, beside, forgave⟩

/-! ### Continuations -/

/-- A step of the main thread. -/
def Action.isMain : Action → Bool
  | .main _ => true
  | _ => false

/-- No stop is requested, the backend stays and no reconcile raises. -/
def Action.Undisturbed (action : Action) : Prop :=
  action ≠ .stop ∧ action ≠ .exits ∧ action ≠ .raises

/-- What every undisturbed continuation with so many steps of the main thread comes to. -/
def Soon (watcher : Bool) (steps : ℕ) (s : Loop) (done : Loop → Prop) : Prop :=
  ∀ (more : List Action) (t : Loop), more.foldlM (step watcher) s = some t → (∀ action ∈ more, action.Undisturbed) →
    steps ≤ more.countP Action.isMain → done t

theorem Within.more {before : List Deed} {fewer steps : ℕ} (within : Within watcher before fewer s)
    (le : fewer ≤ steps) : Within watcher before steps s := by
  obtain ⟨going, unstopped, after, split, here⟩ := within
  refine ⟨going, unstopped, after, split, here.imp id fun here => ?_⟩
  exact here.imp (fun ⟨untaken, far⟩ => ⟨untaken, far.trans le⟩) fun ⟨up, near⟩ => ⟨up, near.trans le⟩

/-- What a step beside the main thread leaves, and what it records. -/
theorem step_beside {action : Action} (undisturbed : action.Undisturbed) (beside : action.isMain = false)
    (stepped : step watcher s action = some t) : t.point = s.point ∧ t.stop = s.stop ∧
      (s.reload = true → t.reload = true) ∧ (s.sighup = true → t.sighup = true) ∧ (s.watch = true → t.watch = true) ∧
      ∃ more, t.deeds = s.deeds ++ more ∧ ∀ deed ∈ more, ¬ deed.Begins ∧ deed ≠ .took .sighup := by
  cases action with
  | hup =>
      obtain rfl := Option.some_inj.mp stepped
      exact ⟨rfl, rfl, fun _ => rfl, id, id, _, rfl, by simp [Deed.Begins]⟩
  | handled =>
      simp only [step] at stepped
      split_ifs at stepped
      obtain rfl := Option.some_inj.mp stepped
      exact ⟨rfl, rfl, id, fun _ => rfl, id, [], (List.append_nil _).symm, by simp⟩
  | stop => exact absurd rfl undisturbed.1
  | request =>
      simp only [step] at stepped
      split_ifs at stepped
      obtain rfl := Option.some_inj.mp stepped
      exact ⟨rfl, rfl, id, id, fun _ => rfl, _, rfl, by simp [Deed.Begins]⟩
  | complete =>
      simp only [step] at stepped
      split_ifs at stepped
      obtain rfl := Option.some_inj.mp stepped
      exact ⟨rfl, rfl, fun _ => rfl, id, id, _, rfl, by simp [Deed.Begins]⟩
  | main now => cases beside
  | exits => exact absurd rfl undisturbed.2.1
  | raises => exact absurd rfl undisturbed.2.2

/-- Enough steps of the main thread serve the SIGHUP. -/
theorem Within.soon {before : List Deed} {steps : ℕ} (kept : Kept watcher s)
    (within : Within watcher before steps s) :
    Soon watcher steps s fun t => ∃ after, t.deeds = before ++ .delivered :: after ∧ Served watcher after := by
  intro more t ran undisturbed enough
  have down : ∀ n s action t, action.Undisturbed → action.isMain = true → Kept watcher s ∧ Within watcher before n s →
      step watcher s action = some t → Kept watcher t ∧ Within watcher before (n - 1) t := by
    rintro n s action t - main ⟨kept, within⟩ stepped
    have kept' := kept.step stepped
    cases action with
    | main now =>
        simp only [Supervise.step] at stepped
        split_ifs at stepped with idle
        exact ⟨kept', Within.main kept kept' (within.more (by omega)) idle stepped⟩
    | _ => cases main
  have still : ∀ n s action t, action.Undisturbed → action.isMain = false →
      Kept watcher s ∧ Within watcher before n s →
      step watcher s action = some t → Kept watcher t ∧ Within watcher before n t := by
    rintro n s action t may beside ⟨kept, within⟩ stepped
    obtain ⟨point, stop, -, -, -, fresh, deeds, none'⟩ := step_beside may beside stepped
    exact ⟨kept.step stepped, within.beside point stop deeds none'⟩
  obtain ⟨kept', going, -, after, split, here⟩ := countdown down still undisturbed ⟨kept, within⟩ ran
  rw [Nat.sub_eq_zero_of_le enough] at here
  refine ⟨after, split, ?_⟩
  rcases here with served | ⟨-, far⟩ | ⟨up, near⟩
  · exact served
  · exact absurd (Point.far_pos going) (by omega)
  · exact absurd (Point.near_pos (kept'.served (Within.taken split up))) (by omega)

/-- The first reconcile of a list that holds one. -/
theorem first_begins {deeds : List Deed} (some' : ¬ ∀ deed ∈ deeds, ¬ deed.Begins) :
    ∃ readied reason rest, deeds = readied ++ .began reason :: rest ∧ ∀ deed ∈ readied, ¬ deed.Begins := by
  induction deeds with
  | nil => exact absurd (fun deed member => absurd member List.not_mem_nil) some'
  | cons deed deeds ih =>
      by_cases now : deed.Begins
      · cases deed with
        | began reason => exact ⟨[], reason, deeds, rfl, fun deed member => absurd member List.not_mem_nil⟩
        | _ => cases now
      · obtain ⟨readied, reason, rest, rfl, beside⟩ := ih fun none' => some' fun other member =>
          (List.mem_cons.mp member).elim (fun same => same ▸ now) (none' other)
        exact ⟨deed :: readied, reason, rest, rfl, fun other member =>
          (List.mem_cons.mp member).elim (fun same => same ▸ now) (beside other)⟩

/-- Behind a SIGHUP: it is served, or nobody has taken it, or it is taken up. -/
theorem Kept.stands {before after : List Deed} (kept : Kept watcher s)
    (split : s.deeds = before ++ .delivered :: after) :
    Served watcher after ∨ .took .sighup ∉ after ∨ TakenUp after := by
  by_cases took : .took .sighup ∈ after
  · obtain ⟨waits, readied, rfl, first⟩ := List.eq_append_cons_of_mem took
    by_cases beside : ∀ deed ∈ readied, ¬ deed.Begins
    · exact Or.inr (Or.inr ⟨waits, readied, rfl, first, beside⟩)
    · obtain ⟨readied, reason, rest, rfl, beside'⟩ := first_begins beside
      obtain ⟨rfl, forgave⟩ := kept.serves split first beside'
      exact Or.inl ⟨waits, readied, rest, rfl, first, beside', forgave⟩
  · exact Or.inr (Or.inl took)

/-- The loop waits, outside of any handler, and no stop is requested. -/
structure AtWait (s : Loop) : Prop where
  point : s.point = .waiting
  idle : s.handling = 0
  unstopped : s.stop = false

/-- A reconcile began since. -/
def Reconciled (s t : Loop) : Prop :=
  ∃ fresh reason, t.deeds = s.deeds ++ fresh ∧ .began reason ∈ fresh

/-- Steps of the main thread to the reconcile of its turn. -/
def Point.left : Point → ℕ
  | .waiting => 9
  | .readingReload => 8
  | .readingStop => 7
  | .clearing => 6
  | .poppingSighup => 5
  | .poppingWatch _ => 4
  | .choosing _ _ => 3
  | .forgiving => 2
  | .calling _ => 1
  | _ => 0

/-- The turn leads to a reconcile. -/
def Bound (s : Loop) : Prop :=
  match s.point with
  | .waiting => s.reload = true ∧ (s.sighup = true ∨ s.watch = true)
  | .readingReload => s.reload = true ∧ (s.sighup = true ∨ s.watch = true)
  | .readingStop => s.sighup = true ∨ s.watch = true
  | .clearing => s.sighup = true ∨ s.watch = true
  | .poppingSighup => s.sighup = true ∨ s.watch = true
  | .poppingWatch sighup => sighup = true ∨ s.watch = true
  | .choosing sighup watched => sighup = true ∨ watched = true
  | .forgiving => True
  | .calling _ => True
  | _ => False

/-- A step that comes nearer to the reconcile of its turn, or begins it. -/
def Strides (s t : Loop) : Prop :=
  ∃ more, t.deeds = s.deeds ++ more ∧ (Bound t ∧ t.point.left < s.point.left ∨ ∃ reason, more = [.began reason])

theorem Bound.main {now : ℚ} (bound : Bound s) (unstopped : s.stop = false)
    (stepped : turn watcher now s = some t) : Strides s t := by
  have quiet {t : Loop} (deeds : t.deeds = s.deeds) (bound : Bound t) (nearer : t.point.left < s.point.left) :
      Strides s t :=
    ⟨[], deeds.trans (List.append_nil _).symm, Or.inl ⟨bound, nearer⟩⟩
  unfold Bound at bound
  cases here : s.point with
  | waiting =>
      rw [here] at bound
      obtain rfl : { s with point := .readingReload } = t := by simpa [turn, here] using stepped
      exact quiet rfl bound (by simp [here, Point.left])
  | readingReload =>
      rw [here] at bound
      obtain rfl : { s with point := .readingStop } = t := by simpa [turn, here, bound.1] using stepped
      exact quiet rfl bound.2 (by simp [here, Point.left])
  | readingStop =>
      rw [here] at bound
      obtain rfl : { s with point := .clearing } = t := by simpa [turn, here, unstopped] using stepped
      exact quiet rfl bound (by simp [here, Point.left])
  | clearing =>
      rw [here] at bound
      simp only [turn, here, Option.some_inj] at stepped
      subst stepped
      exact quiet rfl bound (by simp [here, Point.left])
  | poppingSighup =>
      rw [here] at bound
      simp only [turn, here, Option.some_inj] at stepped
      subst stepped
      exact ⟨_, rfl, Or.inl ⟨bound, by simp [here, Point.left]⟩⟩
  | poppingWatch popped =>
      rw [here] at bound
      simp only [turn, here, Option.some_inj] at stepped
      subst stepped
      exact ⟨_, rfl, Or.inl ⟨bound, by simp [here, Point.left]⟩⟩
  | choosing popped watched =>
      rw [here] at bound
      simp only [turn, here] at stepped
      split_ifs at stepped with neither
      · simp_all
      · obtain rfl := Option.some_inj.mp stepped
        exact quiet rfl trivial (by simp [here, Point.left])
      · obtain rfl := Option.some_inj.mp stepped
        exact quiet rfl trivial (by simp [here, Point.left])
      · obtain rfl := Option.some_inj.mp stepped
        exact quiet rfl trivial (by simp [here, Point.left])
  | forgiving =>
      simp only [turn, here, Option.some_inj] at stepped
      subst stepped
      exact ⟨_, rfl, Or.inl ⟨trivial, by simp [here, Point.left]⟩⟩
  | calling reason =>
      simp only [turn, here, Option.some_inj] at stepped
      subst stepped
      exact ⟨_, rfl, Or.inr ⟨reason, rfl⟩⟩
  | _ =>
      rw [here] at bound
      cases bound

/-- Flags that go up beside the main thread do not keep it from its reconcile. -/
theorem Bound.beside (bound : Bound s) (point : t.point = s.point) (reload : s.reload = true → t.reload = true)
    (sighup : s.sighup = true → t.sighup = true) (watch : s.watch = true → t.watch = true) : Bound t := by
  unfold Bound at bound ⊢
  rw [point]
  cases here : s.point with
  | waiting =>
      rw [here] at bound
      exact ⟨reload bound.1, bound.2.imp sighup watch⟩
  | readingReload =>
      rw [here] at bound
      exact ⟨reload bound.1, bound.2.imp sighup watch⟩
  | readingStop =>
      rw [here] at bound
      exact bound.imp sighup watch
  | clearing =>
      rw [here] at bound
      exact bound.imp sighup watch
  | poppingSighup =>
      rw [here] at bound
      exact bound.imp sighup watch
  | poppingWatch popped =>
      rw [here] at bound
      exact bound.imp id watch
  | _ =>
      rw [here] at bound
      exact bound

theorem Bound.left_pos (bound : Bound s) : 0 < s.point.left := by
  unfold Bound at bound
  cases here : s.point with
  | starting =>
      rw [here] at bound
      cases bound
  | reconciling =>
      rw [here] at bound
      cases bound
  | stopping =>
      rw [here] at bound
      cases bound
  | ended =>
      rw [here] at bound
      cases bound
  | _ => simp [Point.left]

/-- A reconcile began since, or the turn is so many steps from it. -/
structure Nearing (s : Loop) (steps : ℕ) (t : Loop) : Prop where
  unstopped : t.stop = false
  deeds : ∃ fresh, t.deeds = s.deeds ++ fresh ∧ ((∃ reason, .began reason ∈ fresh) ∨ Bound t ∧ t.point.left ≤ steps)

/-- A turn that is bound to reconcile does so in as many steps of the main thread. -/
theorem Bound.soon {steps : ℕ} (bound : Bound s) (unstopped : s.stop = false) (near : s.point.left ≤ steps) :
    Soon watcher steps s (Reconciled s) := by
  intro more t ran undisturbed enough
  have down : ∀ n u action t, action.Undisturbed → action.isMain = true → Nearing s n u →
      step watcher u action = some t → Nearing s (n - 1) t := by
    rintro n u action t - main ⟨unstopped, fresh, deeds, here⟩ stepped
    cases action with
    | main now =>
        simp only [Supervise.step] at stepped
        split_ifs at stepped
        obtain ⟨-, still, goes⟩ := turn_goes unstopped stepped
        rcases here with ⟨reason, began⟩ | ⟨bound, near⟩
        · obtain ⟨further, deeds'⟩ := goes
          exact ⟨still, fresh ++ further, by rw [deeds', deeds, List.append_assoc],
            Or.inl ⟨reason, List.mem_append_left _ began⟩⟩
        · obtain ⟨further, deeds', ⟨bound', nearer⟩ | ⟨reason, rfl⟩⟩ := bound.main unstopped stepped
          · exact ⟨still, fresh ++ further, by rw [deeds', deeds, List.append_assoc], Or.inr ⟨bound', by omega⟩⟩
          · exact ⟨still, fresh ++ [.began reason], by rw [deeds', deeds, List.append_assoc],
              Or.inl ⟨reason, List.mem_append_right _ List.mem_cons_self⟩⟩
    | _ => cases main
  have still : ∀ n u action t, action.Undisturbed → action.isMain = false → Nearing s n u →
      step watcher u action = some t → Nearing s n t := by
    rintro n u action t may beside ⟨unstopped, fresh, deeds, here⟩ stepped
    obtain ⟨point, stop, reload, sighup, watch, further, deeds', -⟩ := step_beside may beside stepped
    refine ⟨stop.trans unstopped, fresh ++ further, by rw [deeds', deeds, List.append_assoc], ?_⟩
    rcases here with ⟨reason, began⟩ | ⟨bound, near⟩
    · exact Or.inl ⟨reason, List.mem_append_left _ began⟩
    · exact Or.inr ⟨bound.beside point reload sighup watch, point ▸ near⟩
  obtain ⟨-, fresh, deeds, here⟩ := countdown down still undisturbed
    (⟨unstopped, [], (List.append_nil _).symm, Or.inr ⟨bound, near⟩⟩ : Nearing s steps s) ran
  rw [Nat.sub_eq_zero_of_le enough] at here
  rcases here with ⟨reason, began⟩ | ⟨bound, none'⟩
  · exact ⟨fresh, reason, deeds, began⟩
  · exact absurd bound.left_pos (by omega)

/-! ### Main result -/

/-- The loop at its wait behind a SIGHUP. -/
def signalled : Loop where
  point := .waiting
  reload := true
  sighup := true
  deeds := [.delivered]

end OscmixDesk.Supervise
