/-
**What a read-back finds** (`verify.py`).

A read-back that completes its window is what the reports of the window make of the registers (`classified`); one
that a stop ends has seen nothing. Either way what it leaves open is expected and is not confirmed (`readBack_open`).
-/

import OscmixDesk.Model.Verify
import OscmixDesk.Proof.Account
import OscmixDesk.Proof.LastReport

namespace OscmixDesk

open Effects Checks

/-- What an entry expects to be reported. -/
def Entry.expectation (entry : Entry) : Expectation :=
  ⟨entry.path, entry.tags, entry.args⟩

/-- The window a read-back opens. -/
def readWindow (config : Config) : Observation :=
  Observation.opened ((expectedRegisters config).toOption.getD []) (deviceForName config.deviceName)
    (dependencyPaths config) loadPaths

/-- What a read-back that observes some reports finds. -/
def classified (config : Config) (reports : List Message) : VerifyResult :=
  ((readWindow config).absorbAll reports).result

/-- What a read-back that observes nothing finds. -/
def unread (config : Config) : VerifyResult where
  confirmed := []
  mismatched := []
  unobserved := (readWindow config).expected.keys

/-! ### The read-back -/

/-- A window that a stop does not refuse ends with what it saw absorbed. -/
theorem watch_seen (world : World) (done : Observation → Bool) (deliveries : List (Option (List Message)))
    (observed : Observation) (seen : List Message) (start : Session) :
    Ends (watch world done none observed seen deliveries) start
      (fun result stop => ∃ more, result = (observed.absorbAll more, seen ++ more) ∧ stop.events = start.events)
      fun _ _ => True := by
  have ended (stop : Session) (same : stop.events = start.events) :
      ∃ more, (observed, seen) = (observed.absorbAll more, seen ++ more) ∧ stop.events = start.events :=
    ⟨[], by rw [List.append_nil]; rfl, same⟩
  induction deliveries generalizing observed seen start with
  | nil => exact ended start rfl
  | cons delivery rest ih =>
      unfold watch
      by_cases finished : done observed = true
      · rw [if_pos finished]
        exact ended start rfl
      rw [if_neg finished, ends_bind, ends_askStop]
      by_cases stopped : world.stop start.clock = true
      · rw [if_pos stopped]
        exact ended _ rfl
      rw [if_neg stopped]
      cases delivery with
      | none => exact trivial
      | some reports =>
          refine (ih (observed.absorbAll reports) (seen ++ reports) _ ?_).imp ?_ fun _ _ _ => trivial
          · exact fun stop same => ⟨[], by rw [List.append_nil]; rfl, same⟩
          · rintro result stop ⟨more, rfl, same⟩
            refine ⟨reports ++ more, Prod.ext ?_ (List.append_assoc ..), same⟩
            exact List.foldl_append.symm

/-- A read-back that a stop ends has seen nothing; one that completes its window finds what the reports of the
window make of the registers. -/
theorem readBack_classified (world : World) (config : Config) (start : Session) :
    Ends (readBack world config) start
      (fun result stop => (stop.events = start.events ∧ result = unread config)
        ∨ ∃ reports, stop.events = start.events ++ [.window reports] ∧ result = classified config reports)
      fun _ _ => True := by
  unfold readBack planned
  rw [ends_bind, ends_lift]
  refine ⟨fun registers known => ?_, fun _ _ => trivial⟩
  have opens : Observation.opened registers (deviceForName config.deviceName) (dependencyPaths config) loadPaths
      = readWindow config := by
    unfold readWindow
    rw [mapError_eq_ok.mp known]
    rfl
  unfold verifyRouting
  dsimp only
  rw [opens]
  rw [ends_bind, ends_askStop]
  by_cases stopped : world.stop start.clock = true
  · rw [if_pos stopped]
    exact Or.inl ⟨rfl, rfl⟩
  rw [if_neg stopped, ends_bind]
  unfold requestDump tick
  rw [ends_bind, ends_update]
  dsimp only
  cases world.grant (start.clock + 1) with
  | unavailable => exact trivial
  | disconnected => exact trivial
  | granted =>
      rw [ends_pure, ends_bind, ends_update, ends_bind]
      refine (watch_seen world _ _ _ [] _).imp ?_ fun _ _ _ => trivial
      rintro result stop ⟨reports, rfl, same⟩
      exact Or.inr ⟨reports, congrArg (· ++ [Event.window reports]) same, rfl⟩

/-- The read-back whose window saw the reports found what they make of the registers. -/
theorem classified_of_window {world : World} {config : Config} {reports : List Message} {result : VerifyResult}
    {before after : Session} (read : readBack world config before = (.ok result, after))
    (observed : after.events = before.events ++ [.window reports]) : result = classified config reports := by
  rcases (readBack_classified world config before).returned read with ⟨same, -⟩ | ⟨others, same, rfl⟩
  · rw [observed] at same
    simp at same
  · rw [observed, List.append_cancel_left_eq] at same
    cases same
    rfl

section Classified

variable {config : Config} {reports : List Message} {path : Path}

theorem sorted_readWindow (config : Config) (reports : List Message) :
    Observation.Sorted ((readWindow config).absorbAll reports) :=
  (Observation.sorted_opened _ _ _ _).absorbAll reports

theorem mem_mismatched : path ∈ (classified config reports).mismatched
    ↔ path ∈ ((readWindow config).absorbAll reports).mismatched := by
  unfold classified Observation.result
  dsimp only
  rw [List.mem_filter, decide_eq_true_eq]
  refine and_iff_right_of_imp fun member => ?_
  exact (sorted_readWindow config reports).mismatched path member

theorem not_confirmed (member : path ∈ (classified config reports).mismatched) :
    path ∉ (classified config reports).confirmed := by
  intro agreed
  have confirmed := of_decide_eq_true (List.mem_filter.mp agreed).2
  exact Finset.disjoint_left.mp (sorted_readWindow config reports).apart confirmed (mem_mismatched.mp member)

theorem mem_invalid : path ∈ (classified config reports).invalid
    ↔ path ∈ ((readWindow config).absorbAll reports).invalid := by
  unfold classified Observation.result
  dsimp only
  rw [List.mem_filter, decide_eq_true_eq]
  refine and_iff_right_of_imp fun member => ?_
  have sorted := sorted_readWindow config reports
  exact sorted.mismatched path (sorted.invalid member)

/-- What a read-back leaves open is expected and is not confirmed. -/
theorem readBack_open {world : World} {result : VerifyResult} {start stop : Session}
    (read : readBack world config start = (.ok result, stop))
    (open' : path ∈ result.mismatched ∨ path ∈ result.unobserved) : path ∉ result.confirmed
      ∧ ∃ expectation ∈ (expectedRegisters config).toOption.getD [], expectation.path = path := by
  rcases (readBack_classified world config start).returned read with ⟨-, rfl⟩ | ⟨reports, -, rfl⟩
  · refine ⟨List.not_mem_nil, ?_⟩
    exact (Keyed.mem_keys_ofList _ _).mp (open'.resolve_left List.not_mem_nil)
  · have window := (Observation.absorbAll_window (readWindow config) reports).1
    have known (member : path ∈ ((readWindow config).absorbAll reports).expected.keys) :
        ∃ expectation ∈ (expectedRegisters config).toOption.getD [], expectation.path = path := by
      rw [window] at member
      exact (Keyed.mem_keys_ofList _ _).mp member
    rcases open' with contradicted | silent
    · exact ⟨not_confirmed contradicted, known (List.mem_filter.mp contradicted).1⟩
    · obtain ⟨member, free, -⟩ := (Observation.mem_unobserved _ _).mp silent
      exact ⟨fun agreed => free (of_decide_eq_true (List.mem_filter.mp agreed).2), known member⟩

end Classified

namespace Generated

variable {config : Config} {entries channels globals : List Entry}

/-- A read-back expects the entries that are compared. -/
theorem registers (generated : Generated config entries channels globals) :
    (expectedRegisters config).toOption.getD [] = (entries.filter (·.compared)).map Entry.expectation := by
  unfold expectedRegisters
  rw [generated.desired]
  rfl

/-- What a read-back expects is one of the entries. -/
theorem expected_entry (generated : Generated config entries channels globals) {path : Path}
    (expected : ∃ expectation ∈ (expectedRegisters config).toOption.getD [], expectation.path = path) :
    ∃ entry ∈ entries, entry.path = path := by
  rw [generated.registers] at expected
  obtain ⟨expectation, member, rfl⟩ := expected
  obtain ⟨entry, inside, rfl⟩ := List.mem_map.mp member
  exact ⟨entry, (List.mem_filter.mp inside).1, rfl⟩

end Generated

end OscmixDesk
