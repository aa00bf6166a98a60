/-
**An observation depends on the last report of each register only.**

`absorb` keeps three sets and a map of values, report by report; a report can take back what an earlier one of
its register did, and touches no other register:

* `Sorted` — confirmed and contradicted registers are expected and apart, and an invalid one is contradicted;
* `lastWins_absorb` — absorbing is an update in which the last item of each key wins, seen through `focused`;
* `absorbAll_congr` — reports with the same last report of every register leave the same observation.
-/

import OscmixDesk.Foundation.LastWins
import OscmixDesk.Model.Observation

namespace OscmixDesk

namespace Observation

/-! ### One register of an observation -/

/-- What an observation has of one register. -/
def focused (path : Path) (observed : Observation) : Observation :=
  { observed with
    latest := fun other => if other = path then observed.latest other else none
    confirmed := observed.confirmed.filter (· = path)
    mismatched := observed.mismatched.filter (· = path)
    invalid := observed.invalid.filter (· = path) }

@[simp] theorem focused_latest (path : Path) (observed : Observation) :
    (observed.focused path).latest path = observed.latest path := by
  simp [focused]

@[simp] theorem mem_focused_confirmed (path : Path) (observed : Observation) :
    path ∈ (observed.focused path).confirmed ↔ path ∈ observed.confirmed := by
  simp [focused]

@[simp] theorem mem_focused_mismatched (path : Path) (observed : Observation) :
    path ∈ (observed.focused path).mismatched ↔ path ∈ observed.mismatched := by
  simp [focused]

@[simp] theorem mem_focused_invalid (path : Path) (observed : Observation) :
    path ∈ (observed.focused path).invalid ↔ path ∈ observed.invalid := by
  simp [focused]

/-- Observations of one window agree where they agree at every register. -/
theorem ext_focused {observed other : Observation}
    (same : ∀ path, observed.focused path = other.focused path)
    (window : observed.expected = other.expected ∧ observed.device = other.device
      ∧ observed.dependencyPaths = other.dependencyPaths ∧ observed.noted = other.noted) :
    observed = other := by
  have latest : observed.latest = other.latest := by
    funext path
    rw [← focused_latest, same, focused_latest]
  have confirmed : observed.confirmed = other.confirmed := by
    ext path
    rw [← mem_focused_confirmed, same, mem_focused_confirmed]
  have mismatched : observed.mismatched = other.mismatched := by
    ext path
    rw [← mem_focused_mismatched, same, mem_focused_mismatched]
  have invalid : observed.invalid = other.invalid := by
    ext path
    rw [← mem_focused_invalid, same, mem_focused_invalid]
  obtain ⟨expected, device, dependencies, noted⟩ := window
  cases observed
  cases other
  simp_all

/-! ### Absorbing a report -/

section Absorb

variable {observed : Observation} {report : Message}

/-- The window of an observation stays. -/
theorem absorb_window (observed : Observation) (report : Message) :
    (observed.absorb report).expected = observed.expected ∧ (observed.absorb report).device = observed.device
      ∧ (observed.absorb report).dependencyPaths = observed.dependencyPaths
      ∧ (observed.absorb report).noted = observed.noted := by
  unfold absorb
  cases observed.expected.get? report.path with
  | none => dsimp only; split_ifs <;> exact ⟨rfl, rfl, rfl, rfl⟩
  | some expectation => dsimp only; split_ifs <;> exact ⟨rfl, rfl, rfl, rfl⟩

theorem absorbAll_window (observed : Observation) (reports : List Message) :
    (observed.absorbAll reports).expected = observed.expected
      ∧ (observed.absorbAll reports).device = observed.device
      ∧ (observed.absorbAll reports).dependencyPaths = observed.dependencyPaths
      ∧ (observed.absorbAll reports).noted = observed.noted := by
  unfold absorbAll
  induction reports generalizing observed with
  | nil => exact ⟨rfl, rfl, rfl, rfl⟩
  | cons report rest ih =>
      obtain ⟨expected, device, dependencies, noted⟩ := absorb_window observed report
      obtain ⟨expected', device', dependencies', noted'⟩ := ih (observed.absorb report)
      exact ⟨expected'.trans expected, device'.trans device, dependencies'.trans dependencies,
        noted'.trans noted⟩

/-- A report of another register changes nothing of a register. -/
theorem focused_absorb_other {path : Path} (other : report.path ≠ path) :
    (observed.absorb report).focused path = observed.focused path := by
  have latest (told : Report) :
      (fun place => if place = path then (observed.latest.set report.path told) place else none)
        = fun place => if place = path then observed.latest place else none := by
    funext place
    split_ifs with here
    · exact Function.update_of_ne (here ▸ other.symm) _ _
    · rfl
  have inserted (places : Finset Path) :
      (insert report.path places).filter (· = path) = places.filter (· = path) := by
    rw [Finset.filter_insert, if_neg other]
  have erased (places : Finset Path) :
      (places.erase report.path).filter (· = path) = places.filter (· = path) := by
    ext place
    simp only [Finset.mem_filter, Finset.mem_erase]
    exact ⟨fun held => ⟨held.1.2, held.2⟩, fun held => ⟨⟨held.2 ▸ other.symm, held.1⟩, held.2⟩⟩
  unfold absorb focused
  cases observed.expected.get? report.path with
  | none => dsimp only; split_ifs <;> simp only [latest]
  | some expectation => dsimp only; split_ifs <;> simp only [latest, inserted, erased]

/-- What a report does to its own register does not need the others. -/
theorem focused_absorb_same :
    (observed.absorb report).focused report.path = (observed.focused report.path).absorb report := by
  have latest (told : Report) :
      (fun place => if place = report.path then (observed.latest.set report.path told) place else none)
        = Reports.set (fun place => if place = report.path then observed.latest place else none)
            report.path told := by
    funext place
    by_cases here : place = report.path
    · simp [Reports.set, here]
    · simp [Reports.set, here]
  have inserted (places : Finset Path) :
      (insert report.path places).filter (· = report.path)
        = insert report.path (places.filter (· = report.path)) := by
    rw [Finset.filter_insert, if_pos rfl]
  have erased (places : Finset Path) :
      (places.erase report.path).filter (· = report.path)
        = (places.filter (· = report.path)).erase report.path := by
    ext place
    simp only [Finset.mem_filter, Finset.mem_erase]
    exact ⟨fun held => ⟨held.1.1, held.1.2, held.2⟩, fun held => ⟨⟨held.1, held.2.1⟩, held.2.2⟩⟩
  unfold absorb focused
  cases observed.expected.get? report.path with
  | none => dsimp only; split_ifs <;> simp only [latest]
  | some expectation => dsimp only; split_ifs <;> simp only [latest, inserted, erased]

theorem insert_erased (path : Path) (places : Finset Path) :
    insert path (places.erase path) = insert path places := by
  ext place
  simp only [Finset.mem_insert, Finset.mem_erase]
  tauto

/-- A report covers what an earlier one of its register did. -/
theorem absorb_absorb {later : Message} (same : later.path = report.path) :
    (observed.absorb report).absorb later = observed.absorb later := by
  have latest (told told' : Report) :
      (observed.latest.set report.path told).set report.path told' = observed.latest.set report.path told' :=
    Function.update_idem _ _ _
  unfold absorb
  rw [same]
  generalize kept : ((observed.expected.get? report.path).isSome || observed.dependencyPaths.contains report.path
    || observed.noted.contains report.path) = keeps
  cases expectation : observed.expected.get? report.path with
  | none =>
      rw [expectation] at kept
      cases keeps with
      | false => simp only [Bool.false_eq_true, if_false, expectation, kept]
      | true => simp only [if_true, expectation, kept, latest]
  | some wanted =>
      rw [expectation] at kept
      have known : keeps = true := kept.symm
      rw [known] at kept ⊢
      cases hidden : unobservable observed.device report.path with
      | true => simp only [if_true, expectation, hidden, latest, kept]
      | false =>
          simp only [if_true, Bool.false_eq_true, if_false, expectation, hidden, latest, kept]
          congr 1 <;> split_ifs <;>
            simp only [insert_erased, Finset.erase_insert_eq_erase, Finset.insert_idem, Finset.erase_idem]

/-- A report that is kept is the latest of its register. -/
theorem absorb_latest (kept : report.path ∈ observed.expected.keys ∨ report.path ∈ observed.dependencyPaths
    ∨ report.path ∈ observed.noted) :
    (observed.absorb report).latest report.path = some ⟨report.tags, report.args⟩ := by
  have known : ((observed.expected.get? report.path).isSome || observed.dependencyPaths.contains report.path
      || observed.noted.contains report.path) = true := by
    rw [Bool.or_eq_true_iff, Bool.or_eq_true_iff, List.contains_iff_mem, List.contains_iff_mem, or_assoc]
    refine kept.imp_left fun expected => Option.isSome_iff_ne_none.mpr fun missing => ?_
    exact (observed.expected.get?_eq_none _).mp missing expected
  unfold absorb
  dsimp only
  rw [if_pos known]
  cases observed.expected.get? report.path with
  | none => exact Function.update_self _ _ _
  | some expectation =>
      dsimp only
      split_ifs <;> exact Function.update_self _ _ _

/-- What a report of an expected register that can be observed makes of it. -/
structure Places (window observed : Observation) (report : Message) (expectation : Expectation) : Prop where
  confirmed : report.path ∈ observed.confirmed ↔ validReport window.device expectation report = true
    ∧ matchesReport expectation.tags expectation.args report.args none (registerAt window.device report.path) = true
  mismatched : report.path ∈ observed.mismatched ↔ report.path ∉ observed.confirmed
  invalid : report.path ∈ observed.invalid ↔ validReport window.device expectation report = false

theorem absorb_places {expectation : Expectation} (expected : observed.expected.get? report.path = some expectation)
    (visible : unobservable observed.device report.path = false) :
    Places observed (observed.absorb report) report expectation := by
  unfold absorb
  simp only [expected, visible]
  cases valid : validReport observed.device expectation report with
  | false => exact ⟨by simp [valid], by simp, by simp [valid]⟩
  | true =>
      cases agrees : matchesReport expectation.tags expectation.args report.args none
          (registerAt observed.device report.path) with
      | false => exact ⟨by simp [agrees], by simp, by simp [valid]⟩
      | true => exact ⟨by simp [valid, agrees], by simp, by simp [valid]⟩

/-- Absorbing is an update in which the last report of a register wins. -/
theorem lastWins_absorb (path : Path) : LastWins absorb Message.path path (focused path) absorb where
  hit := by
    rintro observed report rfl
    exact focused_absorb_same
  miss := fun _ _ other => focused_absorb_other other
  covers := fun _ _ _ first second => absorb_absorb (second.trans first.symm)

end Absorb

/-! ### A window -/

/-- Reports with the same last report of every register leave the same observation. -/
theorem absorbAll_congr (observed : Observation) {reports others : List Message}
    (same : ∀ path, lastOf Message.path path reports = lastOf Message.path path others) :
    observed.absorbAll reports = observed.absorbAll others := by
  apply ext_focused
  · intro path
    exact (lastWins_absorb path).foldl_congr observed (same path)
  · obtain ⟨expected, device, dependencies, noted⟩ := observed.absorbAll_window reports
    obtain ⟨expected', device', dependencies', noted'⟩ := observed.absorbAll_window others
    exact ⟨expected.trans expected'.symm, device.trans device'.symm, dependencies.trans dependencies'.symm,
      noted.trans noted'.symm⟩

/-- A register is as its last report alone leaves it. -/
theorem focused_absorbAll (observed : Observation) (reports : List Message) (path : Path) :
    (observed.absorbAll reports).focused path
      = (observed.absorbAll (lastOf Message.path path reports).toList).focused path :=
  (lastWins_absorb path).foldl_congr observed lastOf_lastOf.symm

/-- What is confirmed or contradicted is expected, nothing is both, and what is invalid is contradicted. -/
structure Sorted (observed : Observation) : Prop where
  confirmed : ∀ path ∈ observed.confirmed, path ∈ observed.expected.keys
  mismatched : ∀ path ∈ observed.mismatched, path ∈ observed.expected.keys
  apart : Disjoint observed.confirmed observed.mismatched
  invalid : observed.invalid ⊆ observed.mismatched

/-- What a report does to the three sets. -/
theorem absorb_cases (observed : Observation) (report : Message) :
    ((observed.absorb report).confirmed = observed.confirmed
      ∧ (observed.absorb report).mismatched = observed.mismatched
      ∧ (observed.absorb report).invalid = observed.invalid)
    ∨ report.path ∈ observed.expected.keys
      ∧ (((observed.absorb report).confirmed = insert report.path observed.confirmed
          ∧ (observed.absorb report).mismatched = observed.mismatched.erase report.path
          ∧ (observed.absorb report).invalid = observed.invalid.erase report.path)
        ∨ ((observed.absorb report).confirmed = observed.confirmed.erase report.path
          ∧ (observed.absorb report).mismatched = insert report.path observed.mismatched
          ∧ (observed.absorb report).invalid ⊆ insert report.path observed.invalid)) := by
  unfold Observation.absorb
  cases expectation : observed.expected.get? report.path with
  | none =>
      left
      dsimp only
      split_ifs <;> exact ⟨rfl, rfl, rfl⟩
  | some wanted =>
      have expected : report.path ∈ observed.expected.keys := by
        by_contra missing
        rw [(observed.expected.get?_eq_none _).mpr missing] at expectation
        cases expectation
      dsimp only
      by_cases hidden : unobservable observed.device report.path
      · left
        simp only [hidden, if_true]
        split_ifs <;> exact ⟨rfl, rfl, rfl⟩
      · right
        refine ⟨expected, ?_⟩
        simp only [hidden]
        by_cases isValid : validReport observed.device wanted report
        · by_cases agrees : matchesReport wanted.tags wanted.args report.args none
              (registerAt observed.device report.path)
          · left
            simp [isValid, agrees]
          · right
            simp only [isValid, agrees, Bool.and_false, if_true]
            refine ⟨by simp, by simp, ?_⟩
            exact (Finset.erase_subset _ _).trans (Finset.subset_insert _ _)
        · right
          simp [isValid]

theorem Sorted.absorb {observed : Observation} (sorted : Sorted observed) (report : Message) :
    Sorted (observed.absorb report) := by
  have window := (absorb_window observed report).1
  rcases absorb_cases observed report with ⟨confirmed, mismatched, invalid⟩ | ⟨expected, decided⟩
  · refine ⟨?_, ?_, ?_, ?_⟩
    · rw [confirmed, window]
      exact sorted.confirmed
    · rw [mismatched, window]
      exact sorted.mismatched
    · rw [confirmed, mismatched]
      exact sorted.apart
    · rw [invalid, mismatched]
      exact sorted.invalid
  · rcases decided with ⟨confirmed, mismatched, invalid⟩ | ⟨confirmed, mismatched, invalid⟩
    · refine ⟨?_, ?_, ?_, ?_⟩
      · intro path member
        rw [confirmed, Finset.mem_insert] at member
        rw [window]
        rcases member with rfl | member
        · exact expected
        · exact sorted.confirmed path member
      · intro path member
        rw [mismatched] at member
        rw [window]
        exact sorted.mismatched path (Finset.mem_of_mem_erase member)
      · rw [confirmed, mismatched, Finset.disjoint_insert_left]
        exact ⟨Finset.notMem_erase _ _, sorted.apart.mono_right (Finset.erase_subset _ _)⟩
      · rw [invalid, mismatched]
        exact Finset.erase_subset_erase _ sorted.invalid
    · refine ⟨?_, ?_, ?_, ?_⟩
      · intro path member
        rw [confirmed] at member
        rw [window]
        exact sorted.confirmed path (Finset.mem_of_mem_erase member)
      · intro path member
        rw [mismatched, Finset.mem_insert] at member
        rw [window]
        rcases member with rfl | member
        · exact expected
        · exact sorted.mismatched path member
      · rw [confirmed, mismatched, Finset.disjoint_insert_right]
        exact ⟨Finset.notMem_erase _ _, sorted.apart.mono_left (Finset.erase_subset _ _)⟩
      · rw [mismatched]
        exact invalid.trans (Finset.insert_subset_insert _ sorted.invalid)

theorem Sorted.absorbAll {observed : Observation} (sorted : Sorted observed) (reports : List Message) :
    Sorted (observed.absorbAll reports) := by
  induction reports generalizing observed with
  | nil => exact sorted
  | cons report rest ih => exact ih (sorted.absorb report)

theorem sorted_opened (expected : List Expectation) (device : Option Device)
    (dependencyPaths noted : List Path) : Sorted (opened expected device dependencyPaths noted) where
  confirmed := by simp [opened]
  mismatched := by simp [opened]
  apart := Finset.disjoint_empty_left _
  invalid := Finset.empty_subset _

theorem mem_unobserved (observed : Observation) (path : Path) :
    path ∈ observed.unobserved
      ↔ path ∈ observed.expected.keys ∧ path ∉ observed.confirmed ∧ path ∉ observed.mismatched := by
  simp [unobserved]

/-! ### One register under two expectations -/

/-- Two observations that have the same of a register. -/
structure Agree (path : Path) (one other : Observation) : Prop where
  device : one.device = other.device
  expected : one.expected.get? path = other.expected.get? path
  mismatched : path ∈ one.mismatched ↔ path ∈ other.mismatched
  invalid : path ∈ one.invalid ↔ path ∈ other.invalid

theorem Agree.absorb {path : Path} {one other : Observation} (agree : Agree path one other) (report : Message) :
    Agree path (one.absorb report) (other.absorb report) := by
  obtain ⟨expected, device, -⟩ := absorb_window one report
  obtain ⟨expected', device', -⟩ := absorb_window other report
  have sets : (path ∈ (one.absorb report).mismatched ↔ path ∈ (other.absorb report).mismatched)
      ∧ (path ∈ (one.absorb report).invalid ↔ path ∈ (other.absorb report).invalid) := by
    by_cases same : report.path = path
    · subst same
      unfold Observation.absorb
      rw [agree.expected, agree.device]
      cases other.expected.get? report.path with
      | none =>
          dsimp only
          split_ifs <;> exact ⟨agree.mismatched, agree.invalid⟩
      | some expectation =>
          dsimp only
          split_ifs <;> simp [agree.mismatched, agree.invalid]
    · have kept (held : Observation) : (held.absorb report).focused path = held.focused path :=
        focused_absorb_other same
      constructor
      · rw [← mem_focused_mismatched, kept, mem_focused_mismatched, agree.mismatched, ← mem_focused_mismatched,
          ← kept other, mem_focused_mismatched]
      · rw [← mem_focused_invalid, kept, mem_focused_invalid, agree.invalid, ← mem_focused_invalid,
          ← kept other, mem_focused_invalid]
  exact ⟨device.trans (agree.device.trans device'.symm), by rw [expected, expected', agree.expected], sets.1, sets.2⟩

theorem Agree.absorbAll {path : Path} {one other : Observation} (agree : Agree path one other)
    (reports : List Message) : Agree path (one.absorbAll reports) (other.absorbAll reports) := by
  induction reports generalizing one other with
  | nil => exact agree
  | cons report rest ih => exact ih (agree.absorb report)

/-- A register that is not expected is not contradicted. -/
theorem not_mismatched {expected : List Expectation} {device : Option Device} {dependencyPaths noted : List Path}
    {path : Path} (reports : List Message) (unexpected : ∀ expectation ∈ expected, expectation.path ≠ path) :
    path ∉ ((opened expected device dependencyPaths noted).absorbAll reports).mismatched := by
  intro member
  have sorted := (sorted_opened expected device dependencyPaths noted).absorbAll reports
  have known := sorted.mismatched path member
  rw [(absorbAll_window _ reports).1] at known
  obtain ⟨expectation, member, same⟩ := (Keyed.mem_keys_ofList _ _).mp known
  exact unexpected expectation member same

theorem expected_get? (expected : List Expectation) (device : Option Device) (dependencyPaths noted : List Path)
    (path : Path) :
    (opened expected device dependencyPaths noted).expected.get? path = lastOf Expectation.path path expected := by
  have last := @get?_foldl_put _ _ _ Expectation.path expected Keyed.empty path
  show (Keyed.ofList expected).get? path = _
  unfold Keyed.ofList
  rw [last]
  exact Option.or_none

/-- Two windows that expect the same of a register find the same of it. -/
theorem opened_agree {expected others : List Expectation} {device : Option Device}
    {dependencyPaths noted dependencyPaths' noted' : List Path} {path : Path}
    (same : lastOf Expectation.path path expected = lastOf Expectation.path path others) (reports : List Message) :
    Agree path ((opened expected device dependencyPaths noted).absorbAll reports)
      ((opened others device dependencyPaths' noted').absorbAll reports) := by
  have agree : Agree path (opened expected device dependencyPaths noted)
      (opened others device dependencyPaths' noted') := by
    refine ⟨rfl, ?_, ?_, ?_⟩
    · rw [expected_get?, expected_get?, same]
    · simp [opened]
    · simp [opened]
  exact agree.absorbAll reports

/-- What a window keeps of a register that it notes. -/
theorem latest_absorb {observed : Observation} {path : Path} (noted : path ∈ observed.dependencyPaths)
    (report : Message) : (observed.absorb report).latest path
      = if report.path = path then some ⟨report.tags, report.args⟩ else observed.latest path := by
  by_cases same : report.path = path
  · subst same
    rw [if_pos rfl]
    exact absorb_latest (Or.inr (Or.inl noted))
  · rw [if_neg same, ← focused_latest, focused_absorb_other same, focused_latest]

theorem latest_absorbAll {observed : Observation} {path : Path} (noted : path ∈ observed.dependencyPaths)
    (reports : List Message) : (observed.absorbAll reports).latest path
      = ((lastOf Message.path path reports).map fun report => ⟨report.tags, report.args⟩).or
        (observed.latest path) := by
  induction reports using List.reverseRecOn with
  | nil => rfl
  | append_singleton reports last ih =>
      have step : observed.absorbAll (reports ++ [last]) = (observed.absorbAll reports).absorb last :=
        List.foldl_concat ..
      have window := (observed.absorbAll_window reports).2.2.1
      rw [step, latest_absorb (window ▸ noted)]
      by_cases same : last.path = path
      · rw [if_pos same, lastOf_append_same same]
        rfl
      · rw [if_neg same, lastOf_append_other same, ih]

/-! ### The result -/

/-- **An observation is what the last report of each register makes of it.** After any reports the confirmed,
the contradicted and the unobserved registers are the expected ones, each exactly once, and an invalid one is
contradicted; a register has the value and the place its last report alone gives it, which is confirmed where the
report is valid and agrees, contradicted elsewhere, and invalid where it is not valid; so reports in which every
register has the same last report leave the same observation: reports of different registers in another order,
and a report dropped that a later one of its register follows. -/
theorem lastReport (expected : List Expectation) (device : Option Device) (dependencyPaths noted : List Path)
    (reports : List Message) :
    let window := opened expected device dependencyPaths noted
    let observed := window.absorbAll reports
    (∀ path, path ∈ window.expected.keys
      ↔ path ∈ observed.confirmed ∨ path ∈ observed.mismatched ∨ path ∈ observed.unobserved)
    ∧ (∀ path, ¬(path ∈ observed.confirmed ∧ path ∈ observed.mismatched)
      ∧ ¬(path ∈ observed.confirmed ∧ path ∈ observed.unobserved)
      ∧ ¬(path ∈ observed.mismatched ∧ path ∈ observed.unobserved))
    ∧ (∀ path ∈ observed.invalid, path ∈ observed.mismatched)
    ∧ (∀ path,
      let alone := window.absorbAll (lastOf Message.path path reports).toList
      observed.latest path = alone.latest path
      ∧ (path ∈ observed.confirmed ↔ path ∈ alone.confirmed)
      ∧ (path ∈ observed.mismatched ↔ path ∈ alone.mismatched)
      ∧ (path ∈ observed.unobserved ↔ path ∈ alone.unobserved)
      ∧ (path ∈ observed.invalid ↔ path ∈ alone.invalid))
    ∧ (∀ path report, lastOf Message.path path reports = some report →
      (path ∈ window.expected.keys ∨ path ∈ dependencyPaths ∨ path ∈ noted →
        observed.latest path = some ⟨report.tags, report.args⟩)
      ∧ ∀ expectation, window.expected.get? path = some expectation → unobservable device path = false →
        Places window observed report expectation)
    ∧ (∀ path, lastOf Message.path path reports = none →
      observed.latest path = none ∧ path ∉ observed.confirmed ∧ path ∉ observed.mismatched)
    ∧ (∀ others : List Message,
      (∀ path, lastOf Message.path path reports = lastOf Message.path path others) →
        window.absorbAll others = observed)
    ∧ (∀ others : List Message,
      (∀ path, reports.filter (·.path = path) = others.filter (·.path = path)) →
        window.absorbAll others = observed)
    ∧ (∀ before report after, reports = before ++ report :: after → (∃ later ∈ after, later.path = report.path) →
        window.absorbAll (before ++ after) = observed) := by
  intro window observed
  have sorted : Sorted observed := (sorted_opened expected device dependencyPaths noted).absorbAll reports
  have keys : observed.expected = window.expected := (window.absorbAll_window reports).1
  have congr (others : List Message)
      (same : ∀ path, lastOf Message.path path reports = lastOf Message.path path others) :
      window.absorbAll others = observed :=
    (absorbAll_congr window same).symm
  have single (path : Path) : let alone := window.absorbAll (lastOf Message.path path reports).toList
      observed.latest path = alone.latest path
      ∧ (path ∈ observed.confirmed ↔ path ∈ alone.confirmed)
      ∧ (path ∈ observed.mismatched ↔ path ∈ alone.mismatched)
      ∧ (path ∈ observed.unobserved ↔ path ∈ alone.unobserved)
      ∧ (path ∈ observed.invalid ↔ path ∈ alone.invalid) := by
    intro alone
    have same : observed.focused path = alone.focused path := focused_absorbAll window reports path
    have keys' : alone.expected = window.expected := (window.absorbAll_window _).1
    have confirmed : path ∈ observed.confirmed ↔ path ∈ alone.confirmed := by
      rw [← mem_focused_confirmed, same, mem_focused_confirmed]
    have mismatched : path ∈ observed.mismatched ↔ path ∈ alone.mismatched := by
      rw [← mem_focused_mismatched, same, mem_focused_mismatched]
    refine ⟨?_, confirmed, mismatched, ?_, ?_⟩
    · rw [← focused_latest, same, focused_latest]
    · rw [mem_unobserved, mem_unobserved, keys, keys', confirmed, mismatched]
    · rw [← mem_focused_invalid, same, mem_focused_invalid]
  refine ⟨?_, ?_, ?_, ?_, ?_, ?_, congr, ?_, ?_⟩
  · intro path
    rw [mem_unobserved, keys]
    constructor
    · intro held
      by_cases agreed : path ∈ observed.confirmed
      · exact Or.inl agreed
      · by_cases contradicted : path ∈ observed.mismatched
        · exact Or.inr (Or.inl contradicted)
        · exact Or.inr (Or.inr ⟨held, agreed, contradicted⟩)
    · rintro (agreed | contradicted | ⟨held, -⟩)
      · exact keys ▸ sorted.confirmed path agreed
      · exact keys ▸ sorted.mismatched path contradicted
      · exact held
  · intro path
    refine ⟨?_, ?_, ?_⟩
    · rintro ⟨agreed, contradicted⟩
      exact Finset.disjoint_left.mp sorted.apart agreed contradicted
    · rintro ⟨agreed, silent⟩
      exact ((mem_unobserved _ _).mp silent).2.1 agreed
    · rintro ⟨contradicted, silent⟩
      exact ((mem_unobserved _ _).mp silent).2.2 contradicted
  · intro path member
    exact sorted.invalid member
  · exact single
  · rintro path report last
    obtain rfl := key_lastOf last
    have alone := single report.path
    rw [last] at alone
    obtain ⟨latest, confirmed, mismatched, -, invalid⟩ := alone
    refine ⟨fun kept => latest.trans (@absorb_latest window report kept), fun expectation expected visible => ?_⟩
    have places := @absorb_places window report expectation expected visible
    exact ⟨confirmed.trans places.confirmed, mismatched.trans (places.mismatched.trans (not_congr confirmed).symm),
      invalid.trans places.invalid⟩
  · intro path silent
    have alone := single path
    rw [silent] at alone
    obtain ⟨latest, confirmed, mismatched, -, -⟩ := alone
    exact ⟨latest, fun member => Finset.notMem_empty _ (confirmed.mp member),
      fun member => Finset.notMem_empty _ (mismatched.mp member)⟩
  · intro others same
    exact congr others fun path => lastOf_congr (same path)
  · rintro before report after split ⟨later, follows, same⟩
    apply congr
    intro path
    rw [split]
    exact lastOf_drop follows same

end Observation

end OscmixDesk
