/-
**What an application plan is.**

`applicationPlan` is inverted once: which paths it leaves alone, which entries it selects, and which
temporary mutes it puts in front (`Planned`). From it: a plan is in the order of the phases
(`Planned.phased`), a write is a selected entry or a temporary mute (`Planned.mem_writes`).
-/

import OscmixDesk.Proof.Silence

namespace OscmixDesk

open Checks

/-! ### The blind plan -/

/-- The writes of a plan in the order of their phases. -/
def Phased (writes : List Write) : Prop :=
  writes.Pairwise fun first second => first.phase.number ≤ second.phase.number

theorem Phase.order_sorted : Phase.order.Pairwise fun first second =>
    first.number ≤ second.number := by decide

theorem phased_bucketSort (writes : List Write) :
    Phased (bucketSort Phase.order Write.phase writes) :=
  pairwise_bucketSort Phase.order Write.phase writes
    (fun first second : Phase => first.number ≤ second.number) Phase.order_sorted
    fun phase => le_refl phase.number

theorem bucketSort_writes_perm (writes : List Write) :
    (bucketSort Phase.order Write.phase writes).Perm writes :=
  perm_bucketSort _ _ _ Phase.order_nodup fun write _ => Phase.mem_order write.phase

/-- With nothing observed, every entry is written. -/
theorem plan_blind (entries : List Entry) : (plan entries).writes =
    bucketSort Phase.order Write.phase (entries.map (·.write .unconditional)) := by
  show bucketSort _ _ (entries.filterMap fun entry => some (entry.write .unconditional)) = _
  rw [List.filterMap_eq_map']

/-! ### The inversion -/

/-- The paths an intent leaves alone, before the protection of retained mutes. -/
def leftAlone (config : Config) (intent : ApplyIntent) (entries : List Entry)
    (leaveAlone confirmed : List Path) (observed : Option Reports) : Except Fault (List Path) :=
  if intent.preservesRemember then preservedPaths config entries leaveAlone confirmed observed
  else pure leaveAlone

/-- The entries a plan selects, as writes. -/
def selection (entries : List Entry) (retained : List Path) : List Write :=
  bucketSort Phase.order Write.phase
    ((entries.filter fun entry => !retained.contains entry.path).map (·.write .unconditional))

/-- A plan and what it was made of. -/
structure Planned (config : Config) (intent : ApplyIntent) (leaveAlone confirmed : List Path)
    (observed : Option Reports) (entries : List Entry) (skip : List Path) (result : Plan) :
    Prop where
  desired : desired config = .ok entries
  left : leftAlone config intent entries leaveAlone confirmed observed = .ok skip
  retained : result.retained = skip ++ protectedEntries config skip confirmed
  mutes : ∃ mutes, declaredMutes config = .ok mutes ∧
    ∀ off ∈ selection entries result.retained, off.phase = .playbackMuteOff →
      released mutes ((selection entries result.retained).map (·.path)) confirmed
        (prerequisites config off.channel)
  writes : result.writes = bucketSort Phase.order Write.phase
    (((selection entries result.retained).filter (·.phase = .playbackMuteOff)).map prerequisiteOn
      ++ selection entries result.retained)

theorem releases_eq_ok {config : Config} {mutes : List (ℕ × ℤ)} {paths confirmed : List Path}
    {off before : List Write} : off.mapM (releaseOf config mutes paths confirmed) = .ok before ↔
      (∀ write ∈ off, released mutes paths confirmed (prerequisites config write.channel))
        ∧ before = off.map prerequisiteOn := by
  rw [mapM_eq_ok]
  induction off generalizing before with
  | nil => simp
  | cons write rest ih =>
      rw [List.forall₂_cons_left_iff]
      constructor
      · rintro ⟨first, others, here, there, rfl⟩
        obtain ⟨all, rfl⟩ := ih.mp there
        unfold releaseOf at here
        split at here
        · next holds =>
            cases here
            exact ⟨List.forall_mem_cons.mpr ⟨holds, all⟩, rfl⟩
        · cases here
      · rintro ⟨all, rfl⟩
        obtain ⟨holds, others⟩ := List.forall_mem_cons.mp all
        exact ⟨prerequisiteOn write, rest.map prerequisiteOn, by rw [releaseOf, if_pos holds],
          ih.mpr ⟨others, rfl⟩, rfl⟩

/-- The plan, with the choice of what it leaves alone as one step. -/
theorem applicationPlan_eq {config : Config} {intent : ApplyIntent}
    {leaveAlone confirmed : List Path} {observed : Option Reports} {entries : List Entry}
    (read : desired config = .ok entries) :
    applicationPlan config intent leaveAlone confirmed observed
      = leftAlone config intent entries leaveAlone confirmed observed >>= fun skip =>
        playbackPrerequisites config (plan (entries.filter fun entry =>
            !(skip ++ protectedEntries config skip confirmed).contains entry.path))
          (skip ++ protectedEntries config skip confirmed) confirmed := by
  unfold applicationPlan leftAlone
  rw [read]
  show (if intent.preservesRemember = true then _ else _) = _
  split <;> rfl

/-- What a returned plan is. -/
theorem applicationPlan_planned {config : Config} {intent : ApplyIntent}
    {leaveAlone confirmed : List Path} {observed : Option Reports} {result : Plan}
    (planned : applicationPlan config intent leaveAlone confirmed observed = .ok result) :
    ∃ entries skip, Planned config intent leaveAlone confirmed observed entries skip result := by
  have ⟨entries, desiredRead, _⟩ := bind_eq_ok.mp planned
  rw [applicationPlan_eq desiredRead] at planned
  obtain ⟨skip, skipRead, planned⟩ := bind_eq_ok.mp planned
  unfold playbackPrerequisites at planned
  obtain ⟨mutes, mutesRead, planned⟩ := bind_eq_ok.mp planned
  obtain ⟨before, releases, same⟩ := bind_eq_ok.mp planned
  obtain rfl := pure_eq_ok.mp same
  obtain ⟨all, rfl⟩ := releases_eq_ok.mp releases
  rw [plan_blind] at all
  refine ⟨entries, skip, desiredRead, skipRead, rfl, ⟨mutes, mapError_eq_ok.mp mutesRead, ?_⟩, ?_⟩
  · intro off member isOff
    exact all off (List.mem_filter.mpr ⟨member, by simpa using isOff⟩)
  · rw [plan_blind]
    rfl

/-- A plan is returned exactly when every release it selects finds what it needs. -/
theorem applicationPlan_returns {config : Config} {intent : ApplyIntent}
    {leaveAlone confirmed : List Path} {observed : Option Reports} {entries : List Entry}
    {skip : List Path} {mutes : List (ℕ × ℤ)} (read : desired config = .ok entries)
    (left : leftAlone config intent entries leaveAlone confirmed observed = .ok skip)
    (words : declaredMutes config = .ok mutes) :
    (∃ result, applicationPlan config intent leaveAlone confirmed observed = .ok result)
      ↔ ∀ off ∈ selection entries (skip ++ protectedEntries config skip confirmed),
        off.phase = .playbackMuteOff → released mutes
          ((selection entries (skip ++ protectedEntries config skip confirmed)).map (·.path))
          confirmed (prerequisites config off.channel) := by
  constructor
  · rintro ⟨result, planned⟩
    obtain ⟨others, kept, plan⟩ := applicationPlan_planned planned
    have sameEntries : others = entries := Except.ok.inj (plan.desired.symm.trans read)
    subst sameEntries
    have sameSkip : kept = skip := Except.ok.inj (plan.left.symm.trans left)
    subst sameSkip
    obtain ⟨declared, declaredRead, all⟩ := plan.mutes
    have sameMutes : declared = mutes := Except.ok.inj (declaredRead.symm.trans words)
    rw [plan.retained, sameMutes] at all
    exact all
  · intro all
    rw [applicationPlan_eq read, left]
    show ∃ result, playbackPrerequisites config _ _ confirmed = .ok result
    unfold playbackPrerequisites
    rw [words, plan_blind]
    refine ⟨_, bind_eq_ok.mpr ⟨mutes, rfl, bind_eq_ok.mpr ⟨_, releases_eq_ok.mpr ⟨?_, rfl⟩, rfl⟩⟩⟩
    intro write member
    obtain ⟨known, isOff⟩ := List.mem_filter.mp member
    exact all write known (by simpa using isOff)

/-- What a later operation leaves alone, path by path. -/
theorem mem_preservedPaths {config : Config} {entries : List Entry}
    {leaveAlone confirmed skip : List Path} {observed : Option Reports}
    (read : desired config = .ok entries)
    (preserved : preservedPaths config entries leaveAlone confirmed observed = .ok skip)
    {path : Path} : path ∈ skip ↔ path ∈ leaveAlone
      ∨ (∃ entry ∈ entries, entry.path = path ∧ entry.phase = .link ∧ entry.path ∈ confirmed)
      ∨ (∃ entry ∈ entries, entry.path = path ∧ isRemembered config entry)
      ∨ path ∈ retainedGains config (observed.getD noReports) (linkedBy entries (leaveAlone
          ++ (entries.filter fun entry =>
            entry.phase = .link && confirmed.contains entry.path).map (·.path))) := by
  unfold preservedPaths rememberedPaths at preserved
  rw [read] at preserved
  have same := Except.ok.inj preserved
  subst same
  simp only [List.mem_append, List.mem_map, List.mem_filter, Bool.and_eq_true, decide_eq_true_eq,
    List.contains_iff_mem, or_assoc]
  refine or_congr_right (or_congr ?_ (or_congr_left ?_))
  · exact exists_congr fun entry => by tauto
  · exact exists_congr fun entry => by tauto

/-- The choice of what to leave alone fails on no configuration with a desired state. -/
theorem leftAlone_total {config : Config} {entries : List Entry}
    (read : desired config = .ok entries) (intent : ApplyIntent) (leaveAlone confirmed : List Path)
    (observed : Option Reports) :
    ∃ skip, leftAlone config intent entries leaveAlone confirmed observed = .ok skip := by
  unfold leftAlone preservedPaths rememberedPaths
  rw [read]
  split
  · exact ⟨_, rfl⟩
  · exact ⟨_, rfl⟩

/-- A gain that is retained is an input's. -/
theorem mem_retainedGains {config : Config} {latest : Reports} {linked : List Path} {path : Path}
    (member : path ∈ retainedGains config latest linked) : ∃ channel, path = gainPath channel := by
  unfold retainedGains at member
  obtain ⟨left, -, own⟩ := List.mem_flatMap.mp member
  obtain ⟨channel, -, same⟩ := List.mem_map.mp own
  exact ⟨channel, same.symm⟩

/-- Where no mute of a playback channel is left alone, nothing is protected. -/
theorem protectedEntries_none (config : Config) (confirmed : List Path) {skip : List Path}
    (free : ∀ channel, mutePath channel ∉ skip) : protectedEntries config skip confirmed = [] := by
  have none : retainedPairs skip = [] := by
    unfold retainedPairs
    rw [List.filterMap_eq_nil_iff]
    intro path member
    split
    · next channel => exact absurd member (free channel)
    · rfl
  unfold protectedEntries
  rw [none]
  rfl

namespace Planned

variable {config : Config} {intent : ApplyIntent} {leaveAlone confirmed : List Path}
  {observed : Option Reports} {entries : List Entry} {skip : List Path} {result : Plan}

/-- A plan is in the order of the phases. -/
theorem phased (planned : Planned config intent leaveAlone confirmed observed entries skip result) :
    Phased result.writes :=
  planned.writes ▸ phased_bucketSort _

theorem mem_selection {retained : List Path} {write : Write} :
    write ∈ selection entries retained ↔
      ∃ entry ∈ entries, entry.path ∉ retained ∧ write = entry.write .unconditional := by
  unfold selection
  rw [(bucketSort_writes_perm _).mem_iff, List.mem_map]
  constructor
  · rintro ⟨entry, member, rfl⟩
    obtain ⟨known, kept⟩ := List.mem_filter.mp member
    exact ⟨entry, known, by simpa using kept, rfl⟩
  · rintro ⟨entry, known, kept, rfl⟩
    exact ⟨entry, List.mem_filter.mpr ⟨known, by simpa using kept⟩, rfl⟩

theorem mem_selected {retained : List Path} {path : Path} :
    path ∈ (selection entries retained).map (·.path)
      ↔ path ∉ retained ∧ ∃ entry ∈ entries, entry.path = path := by
  rw [List.mem_map]
  constructor
  · rintro ⟨write, member, rfl⟩
    obtain ⟨entry, known, kept, rfl⟩ := mem_selection.mp member
    exact ⟨kept, entry, known, rfl⟩
  · rintro ⟨kept, entry, known, rfl⟩
    exact ⟨_, mem_selection.mpr ⟨entry, known, kept, rfl⟩, rfl⟩

/-- The temporary mutes of one path are those of its releases. -/
theorem releases_filter (writes : List Write) (path : Path) :
    ((writes.filter (·.phase = .playbackMuteOff)).map prerequisiteOn).filter (·.path = path)
      = ((writes.filter (·.path = path)).filter (·.phase = .playbackMuteOff)).map
        prerequisiteOn := by
  rw [List.filter_map, List.filter_filter, List.filter_filter]
  congr 1
  exact List.filter_congr fun write _ => Bool.and_comm _ _

/-- A write is a selected entry, or the temporary mute in front of a selected release. -/
theorem mem_writes (planned :
      Planned config intent leaveAlone confirmed observed entries skip result) {write : Write} :
    write ∈ result.writes ↔ write ∈ selection entries result.retained
      ∨ ∃ off ∈ selection entries result.retained, off.phase = .playbackMuteOff
        ∧ write = prerequisiteOn off := by
  rw [planned.writes, (bucketSort_writes_perm _).mem_iff, List.mem_append, List.mem_map, or_comm]
  simp only [List.mem_filter, decide_eq_true_eq, and_assoc, eq_comm (a := write)]

/-- A plan writes no path it retains. -/
theorem not_retained (planned :
      Planned config intent leaveAlone confirmed observed entries skip result) {write : Write}
    (member : write ∈ result.writes) : write.path ∉ result.retained := by
  rcases planned.mem_writes.mp member with selected | ⟨off, selected, -, rfl⟩
  · obtain ⟨entry, -, kept, rfl⟩ := mem_selection.mp selected
    exact kept
  · obtain ⟨entry, -, kept, rfl⟩ := mem_selection.mp selected
    exact kept

end Planned

end OscmixDesk
