/-
**What the watcher asks for and what the reconcile writes** (`watch.py`, `verify.py`, `routing.py`).

Both judge a register by the last report of it, and both leave alone what is remembered. The watcher's plan is made
as if no link were confirmed: it joins every pair that the desk links, and behind a retained playback mute it
protects every output link and what is behind it (`Overlooked`). The reconcile confirms links with its read-back,
so it leaves less alone (`spared`), and the DSP budgets take switches from its plan (`Withheld`).

* `mem_drift` — what the watcher asks for;
* `watchAgrees_iff` — when that is what the reconcile writes.
-/

import OscmixDesk.Model.Watch
import OscmixDesk.Proof.ReadBacks
import OscmixDesk.Proof.Spared

namespace OscmixDesk

open Effects Checks

/-! ### What is judged and what is left alone -/

/-- The last report of each register. -/
def lastReports (reports : List Message) : Reports :=
  Backend.Watcher.reportsOf (Keyed.ofList reports)

/-- A register that is pinned and reported, and whose report is valid and contradicts the desk. -/
structure Contradicted (config : Config) (reports : List Message) (path : Path) : Prop where
  pinned : config.policy path = .pin
  verifiable : verifyClass (deviceForName config.deviceName) path = some .verifiable
  mismatched : path ∈ (classified config reports).mismatched
  valid : path ∉ (classified config reports).invalid

/-- What the watcher overlooks: a release is stuck with no link confirmed, or the register is an AutoSet gain of
a pair that the desk links, or a retained mute protects it with no link confirmed. -/
def Overlooked (config : Config) (reports : List Message) (path : Path) : Prop :=
  Stuck config .reconcile []
    ∨ path ∈ retainedGains config (lastReports reports) (declaredLinks config)
    ∨ path ∈ protectedEntries config (rememberedEntries config) []

/-! ### What the watcher asks for -/

namespace Generated

variable {config : Config} {entries channels globals : List Entry}

/-- Only a cell that the base silences may be left out of a comparison. -/
theorem compared_of_own (generated : Generated config entries channels globals) {entry : Entry}
    (member : entry ∈ entries) (own : entry.base = false) : entry.compared = true := by
  rcases generated.mem_iff.mp member with routed | silent | channel | global
  · obtain ⟨route, -, ⟨message, -, rfl⟩ | ⟨message, -, rfl⟩⟩ := (mem_producedEntries _).mp (mem_produced _ routed)
    · rfl
    · rfl
  · have base := (silent_shape silent).2.2.1
    rw [own] at base
    cases base
  · obtain ⟨_, -, _, -, form, -⟩ := exists_left generated.channels channel
    exact form.compared
  · obtain ⟨_, -, _, -, form, -⟩ := exists_left generated.globals global
    exact form.compared

/-- What the watcher expects of a register that its plan writes. -/
theorem watched_last (generated : Generated config entries channels globals) {intent : ApplyIntent}
    {leaveAlone confirmed skip : List Path} {observed : Option Reports} {selected : Plan}
    (planned : Planned config intent leaveAlone confirmed observed entries skip selected) {device : Device}
    {path : Path} (kept : path ∉ selected.retained)
    (verifiable : verifyClass (some device) path = some .verifiable) :
    lastOf Expectation.path path (watchedWrites device selected)
      = (lastOf Entry.path path entries).map Entry.expectation := by
  have own : selected.writes.filter (fun write => write.reason ≠ .prerequisite
        && verifyClass (some device) write.path = some .verifiable)
      = (selection entries selected.retained).filter fun write =>
        decide (verifyClass (some device) write.path = some .verifiable) := by
    rw [planned.lasting fun off _ _ => by simp [prerequisiteOn]]
    refine List.filter_congr fun write member => ?_
    obtain ⟨entry, -, -, rfl⟩ := Planned.mem_selection.mp member
    simp [Entry.write]
  have expected : ∀ write : Write, (⟨write.path, write.tags, write.args⟩ : Expectation).path = write.path :=
    fun _ => rfl
  have written : ∀ entry : Entry, (entry.write .unconditional).path = entry.path := fun _ => rfl
  unfold watchedWrites
  rw [own, lastOf_map expected, lastOf_filter fun write _ same => decide_eq_true (same ▸ verifiable),
    generated.selection_eq, lastOf_map written, lastOf_filter, Option.map_map]
  · rfl
  · rintro entry - rfl
    simpa using kept

theorem not_watched {intent : ApplyIntent}
    {leaveAlone confirmed skip : List Path} {observed : Option Reports} {selected : Plan}
    (planned : Planned config intent leaveAlone confirmed observed entries skip selected) {device : Device}
    {path : Path} (left : path ∈ selected.retained ∨ verifyClass (some device) path ≠ some .verifiable) :
    ∀ expectation ∈ watchedWrites device selected, expectation.path ≠ path := by
  rintro expectation member rfl
  obtain ⟨write, chosen, rfl⟩ := List.mem_map.mp member
  obtain ⟨inside, holds⟩ := List.mem_filter.mp chosen
  have verifiable := (Bool.and_eq_true_iff.mp holds).2
  rcases left with retained | other
  · exact planned.not_retained inside retained
  · exact other (of_decide_eq_true verifiable)

/-- What a read-back expects of a register that is not remembered. -/
theorem registers_last (generated : Generated config entries channels globals) {path : Path}
    (own : path ∉ rememberedEntries config) :
    lastOf Expectation.path path ((expectedRegisters config).toOption.getD [])
      = (lastOf Entry.path path entries).map Entry.expectation := by
  rw [generated.registers]
  have paths : ∀ entry : Entry, entry.expectation.path = entry.path := fun _ => rfl
  rw [lastOf_map paths, lastOf_filter]
  rintro entry member rfl
  refine generated.compared_of_own member ?_
  by_contra base
  refine own (List.mem_map_of_mem (List.mem_filter.mpr ⟨generated.deskEntries_eq ▸ member, ?_⟩))
  exact isRemembered_iff.mpr (Or.inl (Bool.not_eq_false _ ▸ base))

/-- What the watcher's plan leaves alone by itself. -/
theorem mem_skip (generated : Generated config entries channels globals) {skip : List Path} {reports : Reports}
    (left : leftAlone config .reconcile entries [] [] (some reports) = .ok skip) {path : Path} :
    path ∈ skip ↔ path ∈ rememberedEntries config
      ∨ path ∈ retainedGains config reports (declaredLinks config) := by
  unfold declaredLinks
  rw [generated.mem_left left, knownLinks_nil, generated.deskEntries_eq, List.append_nil]
  simp

/-- A contradicted register is one of the desk's. -/
theorem contradicted_entry (generated : Generated config entries channels globals) {reports : List Message}
    {path : Path} (member : path ∈ (classified config reports).mismatched) :
    ∃ entry ∈ entries, entry.path = path := by
  refine generated.expected_entry ?_
  by_contra none
  refine Observation.not_mismatched reports (fun expectation known same => ?_) (mem_mismatched.mp member)
  exact none ⟨expectation, known, same⟩

/-- A register that is not remembered is pinned. -/
theorem pinned_of_own (generated : Generated config entries channels globals) {path : Path}
    (known : ∃ entry ∈ entries, entry.path = path) (own : path ∉ rememberedEntries config) :
    config.policy path = .pin := by
  obtain ⟨entry, member, rfl⟩ := known
  by_contra other
  refine own (List.mem_map_of_mem (List.mem_filter.mpr ⟨generated.deskEntries_eq ▸ member, ?_⟩))
  exact isRemembered_iff.mpr (Or.inr other)

/-- What the watcher asks for. -/
theorem mem_drift (generated : Generated config entries channels globals)
    {declared added : List Route} {mirrors : List Mirror} (loaded : Loaded config declared added mirrors)
    {device : Device} (modelled : deviceForName config.deviceName = some device) (reports : List Message)
    (path : Path) :
    path ∈ drift config reports (lastReports reports)
      ↔ Contradicted config reports path ∧ path ∉ rememberedEntries config ∧ ¬ Overlooked config reports path := by
  have positive : ∀ route ∈ config.routes, ∀ channel ∈ route.source.toList, 1 ≤ channel :=
    fun route known => loaded.source_positive known
  have stuck := generated.applicationPlan_iff loaded .reconcile [] (some (lastReports reports))
  unfold drift
  rw [modelled]
  dsimp only
  by_cases silent : reports = []
  · rw [if_pos silent]
    refine iff_of_false List.not_mem_nil fun judged => ?_
    have member := mem_mismatched.mp judged.1.mismatched
    rw [silent] at member
    simp [Observation.absorbAll, readWindow, Observation.opened] at member
  rw [if_neg silent]
  cases plan : applicationPlan config .reconcile [] [] (some (lastReports reports)) with
  | error refused =>
      refine iff_of_false List.not_mem_nil fun judged => judged.2.2 (Or.inl ?_)
      by_contra free
      obtain ⟨selected, planned⟩ := stuck.mpr free
      rw [plan] at planned
      cases planned
  | ok selected =>
      have free : ¬ Stuck config .reconcile [] := stuck.mp ⟨selected, plan⟩
      obtain ⟨others, skip, planned⟩ := applicationPlan_planned plan
      obtain rfl : others = entries := Except.ok.inj (planned.desired.symm.trans generated.desired)
      have kept : path ∈ selected.retained ↔ path ∈ rememberedEntries config
          ∨ path ∈ retainedGains config (lastReports reports) (declaredLinks config)
          ∨ path ∈ protectedEntries config (rememberedEntries config) [] := by
        rw [planned.retained, List.mem_append, generated.mem_skip planned.left, or_assoc]
        refine or_congr_right (or_congr_right (protectedEntries_congr positive fun channel => ?_))
        rw [generated.mem_skip planned.left]
        exact or_iff_left fun gain => (gain_apart gain).2 channel rfl
      set watched := (Observation.opened (watchedWrites device selected) (some device)).absorbAll reports with seen
      have asked : path ∈ contradicted device selected reports
          ↔ path ∈ watched.mismatched ∧ path ∉ watched.invalid := by
        unfold contradicted
        dsimp only
        rw [List.mem_mergeSort, List.mem_filter, decide_eq_true_eq, ← seen]
        refine and_iff_right_of_imp fun member => ?_
        exact ((Observation.sorted_opened _ _ _ _).absorbAll reports).mismatched path member.1
      rw [asked]
      by_cases left : path ∈ selected.retained ∨ verifyClass (some device) path ≠ some .verifiable
      · have none : path ∉ watched.mismatched := Observation.not_mismatched reports (not_watched planned left)
        refine iff_of_false (fun member => none member.1) ?_
        rintro ⟨contradicted, own, shown⟩
        rcases left with retained | other
        · rcases kept.mp retained with remembered | overlooked
          · exact absurd remembered own
          · exact absurd (Or.inr overlooked) shown
        · exact absurd (modelled ▸ contradicted.verifiable) other
      · obtain ⟨writes, verifiable⟩ := not_or.mp left
        have verifiable := not_not.mp verifiable
        have own : path ∉ rememberedEntries config := fun remembered => writes (kept.mpr (Or.inl remembered))
        have shown : ¬ Overlooked config reports path := fun overlooked =>
          writes (kept.mpr (Or.inr (overlooked.resolve_left free)))
        have same := (generated.watched_last planned writes verifiable).trans (generated.registers_last own).symm
        have agree : Observation.Agree path watched ((readWindow config).absorbAll reports) := by
          unfold readWindow
          rw [modelled]
          exact Observation.opened_agree same reports
        have mismatched : path ∈ watched.mismatched ↔ path ∈ (classified config reports).mismatched :=
          agree.mismatched.trans mem_mismatched.symm
        have invalid : path ∈ watched.invalid ↔ path ∈ (classified config reports).invalid :=
          agree.invalid.trans mem_invalid.symm
        rw [mismatched, invalid]
        constructor
        · rintro ⟨member, valid⟩
          have pinned := generated.pinned_of_own (generated.contradicted_entry member) own
          exact ⟨⟨pinned, modelled ▸ verifiable, member, valid⟩, own, shown⟩
        · rintro ⟨judged, -⟩
          exact ⟨judged.mismatched, judged.valid⟩

end Generated

/-! ### The two compared -/

/-- The reports that a read-back keeps of what AutoSet depends on. -/
theorem classified_latest {config : Config} (reports : List Message) {path : Path}
    (depends : path ∈ dependencyPaths config) : (classified config reports).latest path = lastReports reports path := by
  have known : (Keyed.ofList reports : Keyed Message.path).get? path = lastOf Message.path path reports := by
    unfold Keyed.ofList
    rw [get?_foldl_put]
    exact Option.or_none
  unfold lastReports Backend.Watcher.reportsOf
  rw [known]
  exact (Observation.latest_absorbAll depends reports).trans Option.or_none

/-- What a reconcile spares, the watcher overlooks or leaves as remembered. -/
theorem spared_left {config : Config}
    (positive : ∀ route ∈ config.routes, ∀ channel ∈ route.source.toList, 1 ≤ channel)
    {reports : List Message} {path : Path} (member : path ∈ spared config (classified config reports)) :
    path ∈ rememberedEntries config ∨ Overlooked config reports path := by
  have fewer : writtenLinks config (classified config reports).confirmed ⊆ declaredLinks config := by
    intro link written
    obtain ⟨entry, inside, same, phase, -, on⟩ := mem_linkedBy_iff.mp written
    exact mem_linkedBy_iff.mpr ⟨entry, inside, same, phase, List.not_mem_nil, on⟩
  have seen : ∀ path ∈ dependencyPaths config, (classified config reports).latest path = lastReports reports path :=
    fun path depends => classified_latest reports depends
  unfold spared at member
  rw [List.mem_append, List.mem_append, retainedGains_congr seen fun _ => Iff.rfl] at member
  rcases member with (own | gain) | guarded
  · exact Or.inl own
  · exact Or.inr (Or.inr (Or.inl (retainedGains_mono fewer gain)))
  · exact Or.inr (Or.inr (Or.inr (protectedEntries_mono positive (List.nil_subset _) guarded)))

/-- The watcher asks for exactly what a reconcile that observes its reports writes, where of the contradicted
registers that the reconcile does not spare it overlooks those, and only those, that the DSP budgets withhold. -/
theorem watchAgrees_iff (world : World) {config : Config} (accepted : Accepted config) {device : Device}
    (modelled : deviceForName config.deviceName = some device) {reports : List Message} {result : VerifyResult}
    {prepared : Prepared} {submitted : Plan} {before after start middle stop : Session}
    (read : readBack world config before = (.ok result, after))
    (observed : after.events = before.events ++ [.window reports])
    (gathered : gather world config .reconcile [] result.confirmed (some result.latest) start
      = (.ok prepared, middle))
    (vetted : vet world config .reconcile prepared middle = (.ok submitted, stop)) :
    (∀ path, path ∈ drift config reports (lastReports reports)
        ↔ Contradicted config reports path ∧ path ∈ submitted.writes.map (·.path))
      ↔ ∀ path, Contradicted config reports path → path ∉ spared config (classified config reports) →
        (Withheld world config (classified config reports) start path ↔ Overlooked config reports path) := by
  obtain rfl := classified_of_window read observed
  obtain ⟨declared, added, mirrors, loaded⟩ := accepted.loaded
  obtain ⟨entries, channels, globals, generated⟩ := loaded.generated
  have positive : ∀ route ∈ config.routes, ∀ channel ∈ route.source.toList, 1 ≤ channel :=
    fun route known => loaded.source_positive known
  refine forall_congr' fun path => ?_
  rw [generated.mem_drift loaded modelled]
  have repaired (contradicted : Contradicted config reports path) :=
    generated.mem_submits loaded gathered vetted (generated.contradicted_entry contradicted.mismatched)
      (not_confirmed contradicted.mismatched)
  have own (free : path ∉ spared config (classified config reports)) : path ∉ rememberedEntries config :=
    fun remembered => free (List.mem_append_left _ (List.mem_append_left _ remembered))
  rw [and_congr_right_iff]
  constructor
  · intro same contradicted free
    have judged := same contradicted
    rw [repaired contradicted, and_iff_right (own free), and_iff_right free] at judged
    exact (not_iff_not.mp judged).symm
  · intro same contradicted
    rw [repaired contradicted]
    by_cases member : path ∈ spared config (classified config reports)
    · refine iff_of_false ?_ fun written => written.1 member
      rintro ⟨other, shown⟩
      exact (spared_left positive member).elim other shown
    · rw [and_iff_right (own member), and_iff_right member]
      exact not_congr (same contradicted member).symm

/-- A pair of playback mutes that are remembered, and a route of other inputs. -/
def mutedAside : IniFile where
  sections :=
    [.single "playback:3" "mute" "on", .single "playback:4" "mute" "on",
      ⟨"route:line", [("input", "5/6"), ("output", "1/2")], by decide⟩]
  distinct := by decide

/-- The link of its output as it should be, and another level of its input. -/
def turnedDown : List Message :=
  [⟨.link .output 1, "i", [.int 1]⟩, ⟨.mix 1 .input 5, "fi", [.float (.finite (-20)), .int 0]⟩]

/-- A desk that reports this in every window, and that nothing plays to. -/
def turningDesk : World :=
  { silentDesk with deliveries := fun _ => [some turnedDown], playback := fun _ => some ⟨some 2, "1112", none⟩ }

theorem turnedDown_contradicted : Contradicted (configOf mutedAside) turnedDown (.mix 1 .input 5) where
  pinned := by decide +kernel
  verifiable := by decide +kernel
  mismatched := by decide +kernel
  valid := by decide +kernel

theorem turnedDown_unasked :
    .mix 1 .input 5 ∉ drift (configOf mutedAside) turnedDown (lastReports turnedDown) := by
  decide +kernel

/-- A reconcile up to what it submits: whether that writes the level. -/
def repairsLevel : Act Bool := do
  let result ← readBack turningDesk (configOf mutedAside)
  let prepared ← gather turningDesk (configOf mutedAside) .reconcile [] result.confirmed (some result.latest)
  let submitted ← vet turningDesk (configOf mutedAside) .reconcile prepared
  return (submitted.writes.map (·.path)).contains (.mix 1 .input 5)

/-- A reconcile that observes these reports writes the level. -/
theorem turnedDown_repaired : ∃ result after prepared middle submitted stop,
    readBack turningDesk (configOf mutedAside) {} = (.ok result, after)
      ∧ after.events = [.window turnedDown]
      ∧ gather turningDesk (configOf mutedAside) .reconcile [] result.confirmed (some result.latest) after
        = (.ok prepared, middle)
      ∧ vet turningDesk (configOf mutedAside) .reconcile prepared middle = (.ok submitted, stop)
      ∧ .mix 1 .input 5 ∈ submitted.writes.map (·.path) := by
  have window : (readBack turningDesk (configOf mutedAside) {}).2.events = [.window turnedDown] := by
    decide +kernel
  have evaluated : (repairsLevel {}).1.toOption = some true := by decide +kernel
  rcases run : repairsLevel {} with ⟨problem | written, stop⟩
  · rw [run] at evaluated
    cases evaluated
  rw [run] at evaluated
  obtain rfl : written = true := Option.some.inj evaluated
  unfold repairsLevel at run
  obtain ⟨result, after, read, run⟩ := bind_returned run
  obtain ⟨prepared, middle, gathered, run⟩ := bind_returned run
  obtain ⟨submitted, last, vetted, run⟩ := bind_returned run
  rw [read] at window
  refine ⟨result, after, prepared, middle, submitted, last, read, window, gathered, vetted, ?_⟩
  exact List.contains_iff_mem.mp (Except.ok.inj (Prod.mk.inj run).1)

/-- The watcher overlooks the level, and the condition says so. -/
theorem watchAgrees_turnedDown : ∃ start : Session,
    ¬ ∀ path, Contradicted (configOf mutedAside) turnedDown path →
      path ∉ spared (configOf mutedAside) (classified (configOf mutedAside) turnedDown) →
      (Withheld turningDesk (configOf mutedAside) (classified (configOf mutedAside) turnedDown) start path
        ↔ Overlooked (configOf mutedAside) turnedDown path) := by
  obtain ⟨result, after, prepared, middle, submitted, stop, read, observed, gathered, vetted, written⟩ :=
    turnedDown_repaired
  have accepted : Accepted (configOf mutedAside) := accepted_configOf (by decide +kernel)
  have modelled : deviceForName (configOf mutedAside).deviceName = some ucx2 := by decide +kernel
  refine ⟨after, fun condition => ?_⟩
  have agrees := (watchAgrees_iff turningDesk accepted modelled read observed gathered vetted).mpr condition
  exact turnedDown_unasked ((agrees _).mpr ⟨turnedDown_contradicted, written⟩)

/-- With a remembered playback mute elsewhere, the watcher does not ask for the level that a reconcile writes. -/
theorem turnedDown_overlooked : Accepted (configOf mutedAside) ∧ ∃ result after prepared middle submitted stop,
    readBack turningDesk (configOf mutedAside) {} = (.ok result, after)
      ∧ after.events = [.window turnedDown]
      ∧ gather turningDesk (configOf mutedAside) .reconcile [] result.confirmed (some result.latest) after
        = (.ok prepared, middle)
      ∧ vet turningDesk (configOf mutedAside) .reconcile prepared middle = (.ok submitted, stop)
      ∧ ¬ ∀ path, path ∈ drift (configOf mutedAside) turnedDown (lastReports turnedDown)
          ↔ Contradicted (configOf mutedAside) turnedDown path ∧ path ∈ submitted.writes.map (·.path) := by
  refine ⟨accepted_configOf (by decide +kernel), ?_⟩
  obtain ⟨result, after, prepared, middle, submitted, stop, read, observed, gathered, vetted, written⟩ :=
    turnedDown_repaired
  refine ⟨result, after, prepared, middle, submitted, stop, read, observed, gathered, vetted, fun agrees => ?_⟩
  exact turnedDown_unasked ((agrees _).mpr ⟨turnedDown_contradicted, written⟩)

end OscmixDesk
