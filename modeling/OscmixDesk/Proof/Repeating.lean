/-
**The watcher's rate limit.**

`Repeats` is asked register by register whether a contradiction is still worth a reconcile. A run of calls
is noted as a trace of marks (`noted`): a register that was asked about, when, and whether it was admitted;
and the points where every count starts again. The marks since the last such point are the epoch.

* `kept_noted` — what `Repeats` remembers is the epoch, up to admissions too old to count, so each mark is
  `due`: a register is admitted where it was not refused in the epoch and fewer than `watchRepeats` of its
  admissions there are recent, and refused otherwise;
* `rateLimited` — what this says of every run.
-/

import OscmixDesk.Foundation.Traces
import OscmixDesk.Model.Watch

namespace OscmixDesk.Backend.Repeats

/-! ### Calls, and what they did -/

inductive Call
  | admitPaths (desk : Config) (paths : List Path) (now : ℚ)
  | forgive

/-- When the call was made, if it tells the time. -/
def Call.time : Call → Option ℚ
  | .admitPaths _ _ now => some now
  | .forgive => none

/-- A call, and what it returns. -/
def perform (repeats : Repeats) : Call → Repeats × List Path
  | .admitPaths desk paths now => repeats.admitPaths desk paths now
  | .forgive => (repeats.forgive, [])

/-- What one call after the other returned, put together. -/
def returned (calls : List Call) : Repeats × List Path :=
  calls.foldl (fun state call => ((state.1.perform call).1, state.2 ++ (state.1.perform call).2)) ({}, [])

inductive Mark
  /-- Every count starts again. -/
  | renewed
  | asked (path : Path) (now : ℚ) (admitted : Bool)
  deriving DecidableEq

/-- One path, with the mark it leaves. -/
def note (now : ℚ) (state : Repeats × List Mark) (path : Path) : Repeats × List Mark :=
  let (repeats, admitted) := admitOne now (state.1, []) path
  (repeats, state.2 ++ [.asked path now (path ∈ admitted)])

/-- A call, with the marks it leaves. -/
def noteCall (state : Repeats × List Mark) : Call → Repeats × List Mark
  | .admitPaths desk paths now =>
      paths.foldl (note now) (if state.1.desk ≠ some desk
        then ({ state.1.forgive with desk := some desk }, state.2 ++ [.renewed]) else state)
  | .forgive => (state.1.forgive, state.2 ++ [.renewed])

/-- A run of calls, noted. -/
def noted (calls : List Call) : Repeats × List Mark :=
  calls.foldl noteCall ({}, [])

namespace Mark

/-- When the register was admitted, if the mark says so. -/
def admission (path : Path) : Mark → Option ℚ
  | .asked other now true => if other = path then some now else none
  | _ => none

def admitted : Mark → Option Path
  | .asked path _ true => some path
  | _ => none

def time : Mark → Option ℚ
  | .asked _ now _ => some now
  | .renewed => none

/-- The epoch, after one more mark. -/
def epoch (marks : List Mark) : Mark → List Mark
  | .renewed => []
  | mark => marks ++ [mark]

end Mark

/-- The admissions of a register, oldest first. -/
def admissions (path : Path) (marks : List Mark) : List ℚ :=
  marks.filterMap (Mark.admission path)

/-- The marks since every count last started again. -/
def epoch (marks : List Mark) : List Mark :=
  marks.foldl Mark.epoch []

def recent (now before : ℚ) : Bool :=
  now - before < watchRepeatWindow

/-- The register was refused. -/
def Refused (path : Path) (marks : List Mark) : Prop :=
  ∃ now, .asked path now false ∈ marks

/-! ### What an epoch is -/

theorem epoch_append (marks rest : List Mark) (none_renewed : .renewed ∉ rest) :
    epoch (marks ++ rest) = epoch marks ++ rest := by
  induction rest generalizing marks with
  | nil => simp
  | cons mark rest ih =>
      have other : Mark.renewed ≠ mark := fun same => none_renewed (same ▸ List.mem_cons_self)
      have none_later : Mark.renewed ∉ rest := fun later => none_renewed (List.mem_cons_of_mem _ later)
      have step : epoch (marks ++ [mark]) = epoch marks ++ [mark] := by
        rw [epoch, List.foldl_append]
        cases mark with
        | renewed => exact absurd rfl other
        | asked path now admitted => rfl
      calc epoch (marks ++ mark :: rest)
          = epoch ((marks ++ [mark]) ++ rest) := by rw [List.append_assoc, List.singleton_append]
        _ = epoch (marks ++ [mark]) ++ rest := ih (marks ++ [mark]) none_later
        _ = epoch marks ++ mark :: rest := by rw [step, List.append_assoc, List.singleton_append]

theorem epoch_renewed (marks : List Mark) : epoch (marks ++ [.renewed]) = [] := by
  rw [epoch, List.foldl_append]
  rfl

theorem epoch_asked (marks : List Mark) (path : Path) (now : ℚ) (admitted : Bool) :
    epoch (marks ++ [.asked path now admitted]) = epoch marks ++ [.asked path now admitted] :=
  epoch_append marks _ (by simp)

theorem epoch_subset (marks : List Mark) : epoch marks ⊆ marks := by
  induction marks using List.reverseRecOn with
  | nil => exact List.Subset.refl _
  | append_singleton marks mark ih =>
      cases mark with
      | renewed =>
          rw [epoch_renewed]
          exact List.nil_subset _
      | asked path now admitted =>
          rw [epoch_asked]
          intro mark member
          rcases List.mem_append.mp member with member | member
          · exact List.mem_append_left _ (ih member)
          · exact List.mem_append_right _ member

theorem admissions_append (path : Path) (marks rest : List Mark) :
    admissions path (marks ++ rest) = admissions path marks ++ admissions path rest :=
  List.filterMap_append

theorem refused_append {path : Path} {marks rest : List Mark} :
    Refused path (marks ++ rest) ↔ Refused path marks ∨ Refused path rest := by
  simp [Refused, exists_or]

/-! ### What is remembered of an epoch -/

/-- A mark that is due after the epoch. -/
def Due (marks : List Mark) : Mark → Prop
  | .renewed => True
  | .asked path now true =>
      ¬Refused path marks ∧ ((admissions path marks).filter (recent now)).length < watchRepeats
  | .asked path now false =>
      Refused path marks ∨ watchRepeats ≤ ((admissions path marks).filter (recent now)).length

/-- No mark is later. -/
def By (now : ℚ) (marks : List Mark) : Prop :=
  ∀ mark ∈ marks, ∀ time ∈ mark.time, time ≤ now

/-- What is remembered is the epoch, but for the admissions that no later question counts. -/
structure Remembers (repeats : Repeats) (marks : List Mark) : Prop where
  left : ∀ path, path ∈ repeats.left ↔ Refused path marks
  times : ∀ path now, By now marks →
    (repeats.times path).filter (recent now) = (admissions path marks).filter (recent now)

/-- A run so far: every mark was due, and the epoch is remembered. -/
structure Kept (state : Repeats × List Mark) : Prop where
  lawful : Traces.Lawful Mark.epoch Due [] state.2
  remembers : Remembers state.1 (epoch state.2)
  ordered : (state.2.filterMap Mark.time).Pairwise (· ≤ ·)

theorem recent_mono {now later before : ℚ} (le : now ≤ later) (still : recent later before = true) :
    recent now before = true := by
  simp only [recent, decide_eq_true_eq] at *
  exact lt_of_le_of_lt (sub_le_sub_right le before) still

/-- What was pruned for one question no later question counts. -/
theorem filter_recent {now later : ℚ} (le : now ≤ later) (times : List ℚ) :
    (times.filter (recent now)).filter (recent later) = times.filter (recent later) := by
  rw [List.filter_filter]
  apply List.filter_congr
  intro before _
  cases still : recent later before with
  | false => rfl
  | true => rw [recent_mono le still, Bool.and_true]

theorem remembers_nil (repeats : Repeats) (desk : Option Config) :
    Remembers { repeats.forgive with desk := desk } [] := by
  constructor
  · intro path
    simp [forgive, Refused]
  · intro path now _
    rfl

theorem kept_nil : Kept ({}, []) :=
  ⟨Traces.lawful_nil, remembers_nil {} none, List.Pairwise.nil⟩

theorem Kept.renew {repeats : Repeats} {marks : List Mark} (kept : Kept (repeats, marks)) (desk : Option Config) :
    Kept ({ repeats.forgive with desk := desk }, marks ++ [.renewed]) := by
  constructor
  · exact kept.lawful.append trivial
  · show Remembers _ (epoch (marks ++ [.renewed]))
    rw [epoch_renewed]
    exact remembers_nil repeats desk
  · show ((marks ++ [Mark.renewed]).filterMap Mark.time).Pairwise (· ≤ ·)
    rw [List.filterMap_append, show [Mark.renewed].filterMap Mark.time = [] from rfl, List.append_nil]
    exact kept.ordered

/-! ### One question -/

/-- What a question comes to. -/
inductive Asked (now : ℚ) (repeats : Repeats) (path : Path) : Repeats × List Path → Prop
  | left (before : path ∈ repeats.left) : Asked now repeats path (repeats, [])
  | often (before : path ∉ repeats.left)
      (many : watchRepeats ≤ ((repeats.times path).filter (recent now)).length) :
      Asked now repeats path ({ repeats with left := path :: repeats.left }, [])
  | admitted (before : path ∉ repeats.left)
      (few : ((repeats.times path).filter (recent now)).length < watchRepeats) :
      Asked now repeats path ({ repeats with
        times := Function.update repeats.times path ((repeats.times path).filter (recent now) ++ [now]) }, [path])

theorem admitOne_asked (now : ℚ) (repeats : Repeats) (path : Path) :
    Asked now repeats path (admitOne now (repeats, []) path) := by
  unfold admitOne
  show Asked now repeats path (if path ∈ repeats.left then (repeats, [])
    else if watchRepeats ≤ ((repeats.times path).filter (recent now)).length then _ else _)
  split_ifs with before many
  · exact .left before
  · exact .often before many
  · exact .admitted before (not_le.mp many)

/-- What was admitted already stays in front. -/
theorem admitOne_front (now : ℚ) (repeats : Repeats) (path : Path) (front : List Path) :
    admitOne now (repeats, front) path =
      ((admitOne now (repeats, []) path).1, front ++ (admitOne now (repeats, []) path).2) := by
  unfold admitOne
  dsimp only
  split_ifs <;> simp

theorem by_append {now : ℚ} {marks : List Mark} {mark : Mark} :
    By now (marks ++ [mark]) ↔ By now marks ∧ ∀ time ∈ mark.time, time ≤ now := by
  simp [By, or_imp, forall_and]

theorem Remembers.refuse {repeats : Repeats} {marks : List Mark} {path : Path} {now : ℚ} {left : List Path}
    (remembers : Remembers repeats marks)
    (same : ∀ other, other ∈ left ↔ other = path ∨ other ∈ repeats.left) :
    Remembers { repeats with left := left } (marks ++ [.asked path now false]) := by
  constructor
  · intro other
    rw [refused_append, ← remembers.left other]
    show other ∈ left ↔ _
    rw [same other, or_comm]
    simp [Refused, eq_comm]
  · intro other later late
    rw [admissions_append, show admissions other [.asked path now false] = [] from rfl, List.append_nil]
    exact remembers.times other later (by_append.mp late).1

theorem Remembers.admit {repeats : Repeats} {marks : List Mark} {path : Path} {now : ℚ}
    (remembers : Remembers repeats marks) :
    Remembers { repeats with
        times := Function.update repeats.times path ((repeats.times path).filter (recent now) ++ [now]) }
      (marks ++ [.asked path now true]) := by
  constructor
  · intro other
    rw [refused_append, ← remembers.left other]
    simp [Refused]
  · intro other later late
    obtain ⟨earlier, le⟩ := by_append.mp late
    have before := remembers.times other later earlier
    rw [admissions_append, List.filter_append, ← before]
    by_cases same : other = path
    · subst same
      have mine : admissions other [.asked other now true] = [now] := by simp [admissions, Mark.admission]
      show (Function.update repeats.times other _ other).filter _ = _
      rw [Function.update_self, List.filter_append, filter_recent (le now rfl), mine]
    · have none : admissions other [.asked path now true] = [] := by
        simp [admissions, Mark.admission, Ne.symm same]
      show (Function.update repeats.times path _ other).filter _ = _
      rw [Function.update_of_ne same, none, List.filter_nil, List.append_nil]

theorem Kept.note {state : Repeats × List Mark} {now : ℚ} (kept : Kept state) (late : By now state.2)
    (path : Path) : Kept (note now state path) ∧ By now (note now state path).2 := by
  obtain ⟨repeats, marks⟩ := state
  have within : By now (epoch marks) := fun mark member => late mark (epoch_subset marks member)
  have counted := kept.remembers.times path now within
  have ordered : ∀ admitted,
      ((marks ++ [Mark.asked path now admitted]).filterMap Mark.time).Pairwise (· ≤ ·) := by
    intro admitted
    rw [List.filterMap_append, List.pairwise_append]
    refine ⟨kept.ordered, List.pairwise_singleton _ _, fun time earlier other member => ?_⟩
    obtain rfl : other = now := by simpa [Mark.time] using member
    obtain ⟨mark, member, timed⟩ := List.mem_filterMap.mp earlier
    exact late mark member time timed
  have still : ∀ admitted, By now (marks ++ [.asked path now admitted]) := fun admitted =>
    by_append.mpr ⟨late, fun time timed => (Option.some.inj timed).symm.le⟩
  have asked := admitOne_asked now repeats path
  unfold Repeats.note
  generalize admitOne now (repeats, []) path = result at asked
  cases asked with
  | left before =>
      refine ⟨⟨?_, ?_, ordered _⟩, still _⟩
      · exact kept.lawful.append (.inl ((kept.remembers.left path).mp before))
      · show Remembers repeats (epoch (marks ++ _))
        rw [epoch_asked]
        refine kept.remembers.refuse fun other => ⟨.inr, fun either => ?_⟩
        exact either.elim (fun same => same ▸ before) id
  | often before many =>
      refine ⟨⟨?_, ?_, ordered _⟩, still _⟩
      · exact kept.lawful.append (.inr (counted ▸ many))
      · show Remembers _ (epoch (marks ++ _))
        rw [epoch_asked]
        exact kept.remembers.refuse fun other => List.mem_cons
  | admitted before few =>
      have noted : decide (path ∈ [path]) = true := by simp
      simp only [noted]
      refine ⟨⟨?_, ?_, ordered true⟩, still true⟩
      · refine kept.lawful.append ⟨fun refused => ?_, counted ▸ few⟩
        exact before ((kept.remembers.left path).mpr refused)
      · show Remembers _ (epoch (marks ++ _))
        rw [epoch_asked]
        exact kept.remembers.admit

/-! ### Every run -/

theorem Kept.noteAll {now : ℚ} (paths : List Path) {state : Repeats × List Mark} (kept : Kept state)
    (late : By now state.2) : Kept (paths.foldl (Repeats.note now) state) ∧
      By now (paths.foldl (Repeats.note now) state).2 := by
  induction paths generalizing state with
  | nil => exact ⟨kept, late⟩
  | cons path paths ih =>
      obtain ⟨next, later⟩ := kept.note late path
      exact ih next later

theorem Kept.call {state : Repeats × List Mark} (kept : Kept state) (call : Call)
    (late : ∀ now ∈ call.time, By now state.2) : Kept (noteCall state call) := by
  cases call with
  | forgive => exact kept.renew state.1.desk
  | admitPaths desk paths now =>
      have late := late now rfl
      unfold noteCall
      dsimp only
      by_cases changed : state.1.desk ≠ some desk
      · rw [if_pos changed]
        refine (Kept.noteAll paths (kept.renew (some desk)) ?_).1
        exact by_append.mpr ⟨late, fun time timed => nomatch timed⟩
      · rw [if_neg changed]
        exact (kept.noteAll paths late).1

theorem note_by {now limit : ℚ} {state : Repeats × List Mark} (le : now ≤ limit) (late : By limit state.2)
    (path : Path) : By limit (note now state path).2 :=
  by_append.mpr ⟨late, fun _ timed => Option.some.inj timed ▸ le⟩

theorem noteCall_by {limit : ℚ} {state : Repeats × List Mark} (late : By limit state.2) (call : Call)
    (within : ∀ now ∈ call.time, now ≤ limit) : By limit (noteCall state call).2 := by
  have renewed : By limit (state.2 ++ [.renewed]) := by_append.mpr ⟨late, fun time timed => nomatch timed⟩
  cases call with
  | forgive => exact renewed
  | admitPaths desk paths now =>
      unfold noteCall
      refine List.foldlRecOn paths (Repeats.note now) (motive := fun state => By limit state.2) ?_ ?_
      · split
        next => exact renewed
        next => exact late
      · exact fun state late path _ => note_by (within now rfl) late path

/-- The marks are no later than the last call. -/
theorem noted_by (calls : List Call) {limit : ℚ} (within : ∀ now ∈ calls.filterMap Call.time, now ≤ limit) :
    By limit (noted calls).2 := by
  induction calls using List.reverseRecOn with
  | nil => exact fun mark member => absurd member List.not_mem_nil
  | append_singleton calls call ih =>
      rw [noted, List.foldl_append]
      rw [List.filterMap_append] at within
      refine noteCall_by (ih fun now member => within now (List.mem_append_left _ member)) call fun now timed => ?_
      have told := List.mem_filterMap.mpr ⟨call, List.mem_singleton_self call, timed⟩
      exact within now (List.mem_append_right _ told)

theorem kept_noted (calls : List Call) (ordered : (calls.filterMap Call.time).Pairwise (· ≤ ·)) :
    Kept (noted calls) := by
  induction calls using List.reverseRecOn with
  | nil => exact kept_nil
  | append_singleton calls call ih =>
      rw [List.filterMap_append, List.pairwise_append] at ordered
      obtain ⟨before, -, across⟩ := ordered
      rw [noted, List.foldl_append]
      refine (ih before).call call fun now timed => noted_by calls fun earlier member => ?_
      exact across earlier member now (List.mem_filterMap.mpr ⟨call, List.mem_singleton_self call, timed⟩)

theorem noteAll_admitOne (now : ℚ) (paths : List Path) (repeats : Repeats) (marks : List Mark) (front : List Path) :
    ∃ own, paths.foldl (note now) (repeats, marks) =
        ((paths.foldl (admitOne now) (repeats, front)).1, marks ++ own) ∧
      (paths.foldl (admitOne now) (repeats, front)).2 = front ++ own.filterMap Mark.admitted := by
  induction paths generalizing repeats marks front with
  | nil => exact ⟨[], by simp, by simp⟩
  | cons path paths ih =>
      obtain ⟨own, same, front'⟩ := ih (admitOne now (repeats, []) path).1
        (marks ++ [.asked path now (path ∈ (admitOne now (repeats, []) path).2)])
        (front ++ (admitOne now (repeats, []) path).2)
      refine ⟨.asked path now (path ∈ (admitOne now (repeats, []) path).2) :: own, ?_, ?_⟩
      · rw [List.foldl_cons, List.foldl_cons, admitOne_front]
        refine same.trans ?_
        rw [List.append_assoc, List.singleton_append]
      · rw [List.foldl_cons, admitOne_front, front', List.append_assoc]
        congr 1
        have asked := admitOne_asked now repeats path
        generalize admitOne now (repeats, []) path = result at asked
        cases asked with
        | left before => rw [decide_eq_false List.not_mem_nil]; rfl
        | often before many => rw [decide_eq_false List.not_mem_nil]; rfl
        | admitted before few => rw [decide_eq_true (List.mem_singleton_self path)]; rfl

theorem noteCall_perform (repeats : Repeats) (marks : List Mark) (call : Call) :
    ∃ own, noteCall (repeats, marks) call = ((repeats.perform call).1, marks ++ own) ∧
      (repeats.perform call).2 = own.filterMap Mark.admitted := by
  cases call with
  | forgive => exact ⟨[.renewed], rfl, rfl⟩
  | admitPaths desk paths now =>
      unfold noteCall perform admitPaths
      dsimp only
      by_cases changed : repeats.desk ≠ some desk
      · rw [if_pos changed, if_pos changed]
        obtain ⟨own, same, admitted⟩ := noteAll_admitOne now paths { repeats.forgive with desk := some desk }
          (marks ++ [.renewed]) []
        exact ⟨.renewed :: own, same.trans (by rw [List.append_assoc, List.singleton_append]), admitted⟩
      · rw [if_neg changed, if_neg changed]
        exact noteAll_admitOne now paths repeats marks []

/-- The marks say what the calls returned. -/
theorem returned_noted (calls : List Call) :
    returned calls = ((noted calls).1, (noted calls).2.filterMap Mark.admitted) := by
  induction calls using List.reverseRecOn with
  | nil => rfl
  | append_singleton calls call ih =>
      obtain ⟨own, same, admitted⟩ := noteCall_perform (noted calls).1 (noted calls).2 call
      rw [returned, noted, List.foldl_append, List.foldl_append]
      show (((returned calls).1.perform call).1, (returned calls).2 ++ ((returned calls).1.perform call).2) =
        ((noteCall (noted calls) call).1, (noteCall (noted calls) call).2.filterMap Mark.admitted)
      rw [ih, same, List.filterMap_append, ← admitted]

/-- Where an admission stands in the trace. -/
theorem admissions_split {path : Path} {marks : List Mark} {j : ℕ} {last : ℚ}
    (at_j : (admissions path marks)[j]? = some last) :
    ∃ before after, marks = before ++ .asked path last true :: after ∧
      admissions path before = (admissions path marks).take j := by
  induction marks generalizing j with
  | nil => simp [admissions] at at_j
  | cons mark marks ih =>
      cases admitted : mark.admission path with
      | none =>
          have skipped : admissions path (mark :: marks) = admissions path marks := List.filterMap_cons_none admitted
          rw [skipped] at at_j
          obtain ⟨before, after, split, same⟩ := ih at_j
          refine ⟨mark :: before, after, by rw [split, List.cons_append], ?_⟩
          rw [skipped, ← same]
          exact List.filterMap_cons_none admitted
      | some time =>
          have first : ∀ rest, admissions path (mark :: rest) = time :: admissions path rest := fun rest =>
            List.filterMap_cons_some admitted
          rw [first] at at_j
          cases j with
          | zero =>
              obtain rfl : time = last := by simpa using at_j
              refine ⟨[], marks, ?_, by simp [admissions]⟩
              unfold Mark.admission at admitted
              split at admitted
              next other now =>
                split_ifs at admitted with same
                rw [same, Option.some.inj admitted, List.nil_append]
              next => cases admitted
          | succ j =>
              rw [List.getElem?_cons_succ] at at_j
              obtain ⟨before, after, split, same⟩ := ih at_j
              refine ⟨mark :: before, after, by rw [split, List.cons_append], ?_⟩
              rw [first, first, List.take_succ_cons, same]

theorem admissions_ordered (path : Path) {marks : List Mark}
    (ordered : (marks.filterMap Mark.time).Pairwise (· ≤ ·)) : (admissions path marks).Pairwise (· ≤ ·) := by
  refine ordered.sublist ?_
  clear ordered
  induction marks with
  | nil => exact List.Sublist.refl _
  | cons mark marks ih =>
      have also : ∀ time, mark.admission path = some time → mark.time = some time := by
        intro time admitted
        unfold Mark.admission at admitted
        split at admitted
        next other now =>
          split_ifs at admitted
          exact admitted
        next => cases admitted
      unfold admissions
      cases admitted : mark.admission path with
      | none =>
          rw [List.filterMap_cons_none admitted, List.filterMap_cons]
          split
          · exact ih
          · exact ih.trans (List.sublist_cons_self _ _)
      | some time =>
          rw [List.filterMap_cons_some admitted, List.filterMap_cons_some (also time admitted)]
          exact ih.cons_cons time

/-- Admissions with `watchRepeats` or more of them after the first are not recent to one another. -/
theorem Kept.span {state : Repeats × List Mark} (kept : Kept state) {path : Path} {between : List Mark}
    (part : between <:+: state.2) (same_epoch : .renewed ∉ between) {i j : ℕ} {first last : ℚ}
    (many : i + watchRepeats ≤ j) (at_i : (admissions path between)[i]? = some first)
    (at_j : (admissions path between)[j]? = some last) : watchRepeatWindow ≤ last - first := by
  obtain ⟨before, after, whole⟩ := id part
  obtain ⟨earlier, later, split, taken⟩ := admissions_split at_j
  have none_earlier : Mark.renewed ∉ earlier := fun member =>
    same_epoch (split ▸ List.mem_append_left _ member)
  obtain ⟨-, few⟩ : Due (epoch (before ++ earlier)) (.asked path last true) := by
    refine kept.lawful (before ++ earlier) (.asked path last true) (later ++ after) ?_
    rw [← whole, split]
    simp
  rw [epoch_append before earlier none_earlier, admissions_append, taken] at few
  have ordered : (admissions path between).Pairwise (· ≤ ·) :=
    admissions_ordered path (kept.ordered.sublist (part.sublist.filterMap Mark.time))
  by_contra close
  obtain ⟨short, -⟩ := List.getElem?_eq_some_iff.mp at_j
  -- The admissions from the first to the one before the last are all recent.
  have recents : ∀ time ∈ ((admissions path between).take j).drop i, recent last time = true := by
    intro time member
    obtain ⟨k, within, at_k⟩ := List.mem_iff_getElem.mp member
    rw [List.getElem_drop, List.getElem_take] at at_k
    obtain ⟨short_i, rfl⟩ := List.getElem?_eq_some_iff.mp at_i
    have first_le : (admissions path between)[i] ≤ time := by
      rcases Nat.eq_zero_or_pos k with rfl | positive
      · exact at_k.le
      · rw [← at_k]
        exact List.pairwise_iff_getElem.mp ordered i (i + k) _ _ (by omega)
    exact decide_eq_true (lt_of_le_of_lt (sub_le_sub_left first_le last) (not_le.mp close))
  have counted : (((admissions path between).take j).drop i).length ≤
      ((admissions path (epoch before) ++ (admissions path between).take j).filter (recent last)).length := by
    refine List.Sublist.length_le ?_
    rw [← List.filter_eq_self.mpr recents]
    exact ((List.drop_sublist i _).trans (List.sublist_append_right _ _)).filter _
  rw [List.length_drop, List.length_take] at counted
  omega

/-- **The rate limit.** Of a register's admissions in one epoch, `watchRepeats` and one more always span the
window; it is refused only where `watchRepeats` of them are recent or it was refused before, and once it
is refused it is never admitted again in that epoch. -/
theorem rateLimited (calls : List Call) (ordered : (calls.filterMap Call.time).Pairwise (· ≤ ·)) :
    returned calls = ((noted calls).1, (noted calls).2.filterMap Mark.admitted) ∧
    (∀ path, path ∈ (noted calls).1.left ↔ Refused path (epoch (noted calls).2)) ∧
    (∀ path between, between <:+: (noted calls).2 → .renewed ∉ between →
      ∀ i j first last, i + watchRepeats ≤ j → (admissions path between)[i]? = some first →
        (admissions path between)[j]? = some last → watchRepeatWindow ≤ last - first) ∧
    (∀ path now before after, (noted calls).2 = before ++ .asked path now false :: after →
      Refused path (epoch before) ∨
        watchRepeats ≤ ((admissions path (epoch before)).filter (recent now)).length) ∧
    ∀ path now before after, (noted calls).2 = before ++ .asked path now true :: after →
      ¬Refused path (epoch before) := by
  have kept := kept_noted calls ordered
  refine ⟨returned_noted calls, kept.remembers.left, ?_, ?_, ?_⟩
  · intro path between part same_epoch i j first last many at_i at_j
    exact kept.span part same_epoch many at_i at_j
  · intro path now before after split
    exact kept.lawful before _ after split
  · intro path now before after split
    exact (kept.lawful before _ after split).1

/-- A register that is admitted three times, left, forgiven, and admitted once more at the same time; and one
that is admitted again where the first admission is just old enough. -/
def repeated : List Call :=
  [.admitPaths {} [.global "volume" none, .global "volume" none, .global "volume" none, .global "volume" none] 0,
    .forgive, .admitPaths {} [.global "volume" none, .global "volume" none, .global "volume" none] 0,
    .admitPaths {} [.global "volume" none] 60]

theorem rateLimited_repeated :
    (noted repeated).2 = [.renewed, .asked (.global "volume" none) 0 true, .asked (.global "volume" none) 0 true,
        .asked (.global "volume" none) 0 true, .asked (.global "volume" none) 0 false, .renewed,
        .asked (.global "volume" none) 0 true, .asked (.global "volume" none) 0 true,
        .asked (.global "volume" none) 0 true, .asked (.global "volume" none) 60 true] ∧
      watchRepeatWindow ≤ (60 : ℚ) - 0 := by
  refine ⟨by decide +kernel, ?_⟩
  obtain ⟨-, -, span, -⟩ := rateLimited repeated (by decide +kernel)
  exact span (.global "volume" none) ((noted repeated).2.drop 6) (List.drop_suffix _ _).isInfix (by decide +kernel)
    0 3 0 60 (by decide +kernel) (by decide +kernel) (by decide +kernel)

end OscmixDesk.Backend.Repeats
