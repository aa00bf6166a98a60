/-
**A release behind its columns.**

A plan that switches a playback mute OFF switches both partners ON first, then sets every link its
routes need, then a crosspoint of the desk for every cell of both columns, and last switches both
partners OFF (`UnmutedBehind`). The order is the order of the phases and the cells are what the
loader checked. That each flag is written *once* rests on the file: two sections for one channel
(`[playback:1]` and `[playback:01]`) are two releases of it (`releases_behind_iff`).
-/

import OscmixDesk.Proof.Totality

set_option maxRecDepth 100000

namespace OscmixDesk

open Checks

instance (left : ℕ) (route : Route) : Decidable (FromPair left route) :=
  inferInstanceAs (Decidable (_ ∨ _))

/-- The stage of a pair's release that a write belongs to: ON, a link of its routes, a crosspoint of
its columns, OFF. -/
def releaseStage (config : Config) (left : ℕ) (write : Write) : Option ℕ :=
  if write.path = mutePath left ∨ write.path = mutePath (left + 1) then
    some (if write.args = [.int 1] then 0 else 3)
  else if ∃ route ∈ config.routes, FromPair left route ∧ write.path ∈ linkPaths route then some 1
  else match write.path with
    | .mix _ .playback source => if source = left ∨ source = left + 1 then some 2 else none
    | _ => none

/-- The phase of the writes of a stage. -/
def stagePhase (stage : ℕ) : Phase :=
  match stage with
  | 0 => .playbackMuteOn
  | 1 => .link
  | 2 => .mix
  | _ => .playbackMuteOff

/-- A pair is switched OFF behind its columns: both flags ON, every link of its routes, a crosspoint
of a route of the desk for every cell, both flags OFF, and each flag once each way. -/
structure UnmutedBehind (config : Config) (confirmed : List Path) (writes : List Write)
    (left : ℕ) : Prop where
  ordered : (writes.filterMap (releaseStage config left)).Pairwise (· ≤ ·)
  muted : ∀ channel, channel = left ∨ channel = left + 1 → ∃ on off,
    writes.filter (·.path = mutePath channel) = [on, off]
      ∧ on.args = [.int 1] ∧ off.args = [.int 0]
  linked : ∀ route ∈ config.routes, FromPair left route → ∀ link ∈ linkPaths route,
    link ∈ confirmed ∨ ∃ write ∈ writes, write.path = link
  covered : ∃ device, deviceForName config.deviceName = some device
    ∧ ∀ out ∈ device.channelsFor "output", ∀ source, source = left ∨ source = left + 1 →
      ∃ route ∈ config.routes, route.base = false ∧ source ∈ route.playback
        ∧ out ∈ route.output.toList ∧ ∃ message ∈ cellMessages route,
          message.path = .mix (route.target out) .playback route.source.first
            ∧ ∃ write ∈ writes, write.message = message

/-- A plan switches a playback channel OFF. -/
def SwitchesOff (writes : List Write) (channel : ℕ) : Prop :=
  ∃ write ∈ writes, write.path = mutePath channel ∧ write.args = [.int 0]

/-- Every plan of the configuration releases its playback channels behind their columns. -/
def ReleasesBehind (config : Config) : Prop :=
  (∀ intent leaveAlone confirmed observed result,
    applicationPlan config intent leaveAlone confirmed observed = .ok result →
      ∀ channel, SwitchesOff result.writes channel →
        UnmutedBehind config confirmed result.writes (pairLeft channel))
  ∧ ∀ confirmed observed result, matrixRepairPlan config confirmed observed = .ok result →
      ∀ channel, SwitchesOff result.writes channel →
        UnmutedBehind config confirmed result.writes (pairLeft channel)

/-- Every released mute is declared by one section. -/
def ReleasedOnce (config : Config) : Prop :=
  ∀ channel, MutedAs config channel 0 →
    (config.channels.map ChannelSetting.path).count (mutePath channel) = 1

/-! ### The writes of one flag -/

/-- The write of a release. -/
def offWrite (channel : ℕ) : Write :=
  (muteEntry channel 0).write .unconditional

theorem mutePath_injective {first second : ℕ} (same : mutePath first = mutePath second) :
    first = second :=
  (Path.channel.inj same).2.1

namespace Generated

variable {config : Config} {entries channels globals : List Entry}
  {declared added : List Route} {mirrors : List Mirror}

/-- An entry on a link is a link message of a route. -/
theorem link_source (generated : Generated config entries channels globals)
    (loaded : Loaded config declared added mirrors) {entry : Entry} (member : entry ∈ entries)
    {family : Family} {channel : ℕ} (link : entry.path = .link family channel) :
    ∃ route ∈ config.routes, ∃ message ∈ linkMessages route,
      entry = message.entry .link route.base := by
  rcases generated.mem_iff.mp member with routed | silent | setting | global
  · obtain ⟨route, known, fromLink | ⟨message, mix, rfl⟩⟩ :=
      (mem_producedEntries _).mp (mem_produced _ routed)
    · exact ⟨route, known, fromLink⟩
    · exfalso
      rcases List.mem_append.mp mix with cell | volume
      · obtain ⟨out, -, level, pan, rfl⟩ := mem_cellMessages cell
        cases link
      · obtain ⟨own, -, out, -, rfl⟩ := mem_volumeMessages.mp volume
        simp [Message.entry] at link
  · obtain ⟨⟨_, _, _, mix⟩, -⟩ := silent_shape silent
    cases mix.symm.trans link
  · obtain ⟨own, inSettings, device, -, form, -⟩ := exists_left generated.channels setting
    exact absurd (Path.channel.inj (form.path.symm.trans link)).2.2
      (loaded.setting_not_link inSettings)
  · obtain ⟨own, -, device, -, form, -⟩ := exists_left generated.globals global
    obtain ⟨_, _, shape⟩ := globalPath_shape own
    cases shape.symm.trans (form.path.symm.trans link)

/-- An entry on a link is in the phase of the links. -/
theorem link_entry (generated : Generated config entries channels globals)
    (loaded : Loaded config declared added mirrors) {entry : Entry} (member : entry ∈ entries)
    {family : Family} {channel : ℕ} (link : entry.path = .link family channel) :
    entry.phase = .link := by
  obtain ⟨route, -, message, -, rfl⟩ := generated.link_source loaded member link
  rfl

/-- A released mute has one entry for each section that declares it. -/
theorem mute_count (generated : Generated config entries channels globals) (channel : ℕ) :
    (entries.map (·.path)).count (mutePath channel)
      = (config.channels.map ChannelSetting.path).count (mutePath channel) := by
  have matrix : mutePath channel
      ∉ (orderedEntries config.routes ++ silentEntries config).map (·.path) := by
    intro member
    obtain ⟨entry, known, same⟩ := List.mem_map.mp member
    rcases List.mem_append.mp known with ordered | silent
    · rcases routed_shape ((mem_ordered _).mp ordered) with
        ⟨family, number, link⟩ | matrix | ⟨route, -, -, out, -, volume⟩
      · have := Path.channel.inj (same.symm.trans link)
        simp at this
      · rw [same] at matrix
        cases matrix
      · have := Path.channel.inj (same.symm.trans volume)
        simp at this
    · obtain ⟨⟨_, _, _, mix⟩, -⟩ := silent_shape silent
      cases same.symm.trans mix
  have global : mutePath channel ∉ globals.map (·.path) := by
    rw [generated.global_paths]
    intro member
    obtain ⟨setting, -, same⟩ := List.mem_map.mp member
    obtain ⟨_, _, shape⟩ := globalPath_shape setting
    cases same.symm.trans shape
  rw [(generated.perm.map _).count_eq, List.map_append, List.map_append, List.count_append,
    List.count_append, List.count_eq_zero.mpr matrix, List.count_eq_zero.mpr global,
    generated.channel_paths, Nat.zero_add, Nat.add_zero]

/-- The selected writes of a released flag. -/
theorem selected_releases (generated : Generated config entries channels globals)
    (loaded : Loaded config declared added mirrors) {retained : List Path} {channel : ℕ}
    (muted : MutedAs config channel 0) (kept : mutePath channel ∉ retained) :
    (selection entries retained).filter (·.path = mutePath channel)
      = List.replicate ((config.channels.map ChannelSetting.path).count (mutePath channel))
        (offWrite channel) := by
  rw [List.eq_replicate_iff]
  constructor
  · have perm := (bucketSort_writes_perm ((entries.filter fun entry =>
      !retained.contains entry.path).map (·.write .unconditional))).filter
        (·.path = mutePath channel)
    rw [← generated.mute_count]
    refine perm.length_eq.trans ?_
    rw [List.filter_map, List.length_map, List.filter_filter, List.count, List.countP_map,
      List.countP_eq_length_filter]
    congr 1
    refine List.filter_congr fun entry _ => ?_
    show (decide (entry.path = mutePath channel) && !retained.contains entry.path)
      = (entry.path == mutePath channel)
    by_cases same : entry.path = mutePath channel
    · rw [same]
      simp [kept]
    · simp [same]
  · intro write member
    obtain ⟨selected, same⟩ := List.mem_filter.mp member
    obtain ⟨entry, known, -, rfl⟩ := Planned.mem_selection.mp selected
    have path : entry.path = mutePath channel := of_decide_eq_true same
    obtain ⟨own, value, other, -, rfl⟩ :=
      generated.mute_word loaded known (Or.inr (Or.inr ⟨channel, path⟩))
    have sameChannel : own = channel := mutePath_injective path
    subst sameChannel
    have zero : value = 0 := loaded.muted_unique other muted
    subst zero
    rfl

end Generated

namespace Planned

variable {config : Config} {intent : ApplyIntent} {leaveAlone confirmed : List Path}
  {observed : Option Reports} {entries channels globals : List Entry} {skip : List Path}
  {result : Plan} {declared added : List Route} {mirrors : List Mirror}

/-- The writes of a released flag: every ON, then every OFF. -/
theorem release_writes
    (planned : Planned config intent leaveAlone confirmed observed entries skip result)
    (generated : Generated config entries channels globals)
    (loaded : Loaded config declared added mirrors) {channel : ℕ}
    (muted : MutedAs config channel 0) (kept : mutePath channel ∉ result.retained) :
    result.writes.filter (·.path = mutePath channel)
      = List.replicate ((config.channels.map ChannelSetting.path).count (mutePath channel))
          (prerequisiteOn (offWrite channel))
        ++ List.replicate ((config.channels.map ChannelSetting.path).count (mutePath channel))
          (offWrite channel) := by
  have off : (offWrite channel).phase = .playbackMuteOff := rfl
  have on : (prerequisiteOn (offWrite channel)).phase = .playbackMuteOn := rfl
  rw [planned.writes, filter_bucketSort, List.filter_append, releases_filter,
    generated.selected_releases loaded muted kept]
  simp [bucketSort, Phase.order, List.filter_replicate, off, on]

/-- A write switches a channel OFF only as the selected release of a declared mute. -/
theorem switched_off
    (planned : Planned config intent leaveAlone confirmed observed entries skip result)
    (generated : Generated config entries channels globals)
    (loaded : Loaded config declared added mirrors) {channel : ℕ}
    (switches : SwitchesOff result.writes channel) :
    MutedAs config channel 0 ∧ offWrite channel ∈ selection entries result.retained := by
  obtain ⟨write, member, path, args⟩ := switches
  rcases planned.mem_writes.mp member with selected | ⟨off, -, -, rfl⟩
  · obtain ⟨entry, known, kept, rfl⟩ := mem_selection.mp selected
    obtain ⟨own, value, muted, -, rfl⟩ :=
      generated.mute_word loaded known (Or.inr (Or.inr ⟨channel, path⟩))
    have sameChannel : own = channel := mutePath_injective path
    subst sameChannel
    have held : [Value.int value] = [.int 0] := args
    have zero : value = 0 := by simpa using held
    subst zero
    exact ⟨muted, selected⟩
  · have impossible : [Value.int 1] = [.int 0] := args
    simp at impossible

/-- The stage of a write of the plan is its phase. -/
theorem stage_phase
    (planned : Planned config intent leaveAlone confirmed observed entries skip result)
    (generated : Generated config entries channels globals)
    (loaded : Loaded config declared added mirrors) {left stage : ℕ} {write : Write}
    (member : write ∈ result.writes) (staged : releaseStage config left write = some stage) :
    stage ≤ 3 ∧ write.phase = stagePhase stage := by
  unfold releaseStage at staged
  rcases planned.mem_writes.mp member with selected | ⟨off, selected, isOff, rfl⟩
  · obtain ⟨entry, known, -, rfl⟩ := mem_selection.mp selected
    split at staged
    · next own =>
      have ⟨channel, path⟩ : ∃ channel, entry.path = mutePath channel := by
        rcases own with odd | even
        · exact ⟨_, odd⟩
        · exact ⟨_, even⟩
      obtain ⟨own, value, -, small, rfl⟩ :=
        generated.mute_word loaded known (Or.inr (Or.inr ⟨channel, path⟩))
      rcases small with rfl | rfl
      · have same : 3 = stage := Option.some.inj staged
        subst same
        exact ⟨le_refl 3, rfl⟩
      · have same : 0 = stage := Option.some.inj staged
        subst same
        exact ⟨Nat.zero_le 3, rfl⟩
    split at staged
    · next link =>
      obtain ⟨route, -, -, inLinks⟩ := link
      obtain ⟨family, channel, path⟩ := Generated.mem_linkPaths inLinks
      have same : 1 = stage := Option.some.inj staged
      subst same
      exact ⟨by decide, generated.link_entry loaded known path⟩
    split at staged
    · next out source mix =>
      split at staged
      · have same : 2 = stage := Option.some.inj staged
        subst same
        have path : entry.path = .mix out .playback source := mix
        exact ⟨by decide, generated.matrix_phase known (path ▸ rfl)⟩
      · cases staged
    · cases staged
  · obtain ⟨muted, same, -⟩ := generated.selected_release loaded selected isOff
    rw [same] at staged ⊢
    split at staged
    · have same : 0 = stage := Option.some.inj staged
      subst same
      exact ⟨Nat.zero_le 3, rfl⟩
    split at staged
    · next link =>
      obtain ⟨route, -, -, inLinks⟩ := link
      obtain ⟨family, channel, path⟩ := Generated.mem_linkPaths inLinks
      simp [prerequisiteOn, Entry.write, muteEntry, mutePath] at path
    · cases staged

theorem stagePhase_mono {first second : ℕ} (small : first ≤ 3) (small' : second ≤ 3)
    (ordered : (stagePhase first).number ≤ (stagePhase second).number) : first ≤ second := by
  revert ordered
  have all : ∀ first ≤ 3, ∀ second ≤ 3,
      (stagePhase first).number ≤ (stagePhase second).number → first ≤ second := by decide
  exact all first small second small'

/-- The stages of a release stand in order. -/
theorem stages_ordered
    (planned : Planned config intent leaveAlone confirmed observed entries skip result)
    (generated : Generated config entries channels globals)
    (loaded : Loaded config declared added mirrors) (left : ℕ) :
    (result.writes.filterMap (releaseStage config left)).Pairwise (· ≤ ·) := by
  rw [List.pairwise_filterMap]
  refine planned.phased.imp_of_mem ?_
  intro first second inFirst inSecond before stage staged stage' staged'
  obtain ⟨small, phase⟩ := planned.stage_phase generated loaded inFirst staged
  obtain ⟨small', phase'⟩ := planned.stage_phase generated loaded inSecond staged'
  rw [phase, phase'] at before
  exact stagePhase_mono small small' before

/-- What a plan that switches a channel OFF contains: both flags, the links and the columns. -/
theorem release_found
    (planned : Planned config intent leaveAlone confirmed observed entries skip result)
    (generated : Generated config entries channels globals)
    (loaded : Loaded config declared added mirrors) {channel : ℕ}
    (switches : SwitchesOff result.writes channel) :
    (mutePath (pairLeft channel) ∉ result.retained
        ∧ mutePath (pairLeft channel + 1) ∉ result.retained)
      ∧ ∀ route ∈ config.routes, FromPair (pairLeft channel) route →
        (∀ path ∈ mixPaths route, path ∉ result.retained)
          ∧ ∀ path ∈ linkPaths route,
            (∃ write ∈ result.writes, write.path = path) ∨ path ∈ confirmed := by
  obtain ⟨mutes, mutesRead, all⟩ := planned.mutes
  obtain ⟨-, selected⟩ := planned.switched_off generated loaded switches
  obtain ⟨-, ⟨odd, even⟩, columns⟩ := released_iff.mp (all _ selected rfl)
  refine ⟨⟨(mem_selected.mp odd).1, (mem_selected.mp even).1⟩, fun route known own => ?_⟩
  obtain ⟨cells, links⟩ := columns route known own
  refine ⟨fun path member => (mem_selected.mp (cells path member)).1, fun path member => ?_⟩
  rcases links path member with written | inConfirmed
  · obtain ⟨write, inSelection, same⟩ := List.mem_map.mp written
    exact Or.inl ⟨write, planned.mem_writes.mpr (Or.inl inSelection), same⟩
  · exact Or.inr inConfirmed

/-- A cell of a column is covered by a crosspoint of a route of the desk that is in the plan. -/
theorem release_covered
    (planned : Planned config intent leaveAlone confirmed observed entries skip result)
    (generated : Generated config entries channels globals)
    (loaded : Loaded config declared added mirrors) {channel : ℕ}
    (switches : SwitchesOff result.writes channel) :
    ∃ device, deviceForName config.deviceName = some device
      ∧ ∀ out ∈ device.channelsFor "output", ∀ source,
        source = pairLeft channel ∨ source = pairLeft channel + 1 →
          ∃ route ∈ config.routes, route.base = false ∧ source ∈ route.playback
            ∧ out ∈ route.output.toList ∧ ∃ message ∈ cellMessages route,
              message.path = .mix (route.target out) .playback route.source.first
                ∧ ∃ write ∈ result.writes, write.message = message := by
  obtain ⟨muted, -⟩ := planned.switched_off generated loaded switches
  obtain ⟨device, modelled, -⟩ := loaded.muted_covered muted
  refine ⟨device, modelled, fun out exists' source own => ?_⟩
  have cell : (out, source) ∈ columnCells device (pairLeft channel) := by
    unfold columnCells
    refine List.mem_flatMap.mpr ⟨out, exists', ?_⟩
    rcases own with rfl | rfl <;> simp
  obtain ⟨route, known, desk, fromPair, inSource, inOutput, message, inCells, path, routed⟩ :=
    loaded.released_cell muted modelled cell
  have needs : message.path ∈ mixPaths route := mem_mixPaths.mpr ⟨message, inCells, rfl⟩
  have kept := ((planned.release_found generated loaded switches).2 route known fromPair).1 _ needs
  have inEntries : message.entry .mix false ∈ entries := generated.mem_iff.mpr (Or.inl routed)
  refine ⟨route, known, desk, inSource, inOutput, message, inCells, path,
    (message.entry .mix false).write .unconditional, ?_, rfl⟩
  exact planned.mem_writes.mpr (Or.inl (mem_selection.mpr ⟨_, inEntries, kept, rfl⟩))

/-- Where every release is declared once, a plan releases behind the columns. -/
theorem unmutedBehind
    (planned : Planned config intent leaveAlone confirmed observed entries skip result)
    (generated : Generated config entries channels globals)
    (loaded : Loaded config declared added mirrors) (once : ReleasedOnce config) {channel : ℕ}
    (switches : SwitchesOff result.writes channel) :
    UnmutedBehind config confirmed result.writes (pairLeft channel) := by
  have found := planned.release_found generated loaded switches
  have pair := loaded.muted_pair (planned.switched_off generated loaded switches).1
  have flag (own : ℕ) (muted : MutedAs config own 0) (kept : mutePath own ∉ result.retained) :
      ∃ on off, result.writes.filter (·.path = mutePath own) = [on, off]
        ∧ on.args = [.int 1] ∧ off.args = [.int 0] := by
    refine ⟨prerequisiteOn (offWrite own), offWrite own, ?_, rfl, rfl⟩
    rw [planned.release_writes generated loaded muted kept, once own muted]
    rfl
  refine ⟨planned.stages_ordered generated loaded _, ?_, ?_,
    planned.release_covered generated loaded switches⟩
  · rintro own (rfl | rfl)
    · exact flag _ pair.1 found.1.1
    · exact flag _ pair.2 found.1.2
  · intro route known own link needs
    exact ((found.2 route known own).2 link needs).symm

/-- The paths of a release are written in its four phases. -/
theorem release_phases
    (planned : Planned config intent leaveAlone confirmed observed entries skip result)
    (generated : Generated config entries channels globals)
    (loaded : Loaded config declared added mirrors) {write : Write} (member : write ∈ result.writes)
    (own : write.path.isMix ∨ (∃ family channel, write.path = .link family channel)
      ∨ ∃ channel, write.path = mutePath channel) :
    write.phase ∈ [Phase.mix, .playbackMuteOn, .playbackMuteOff, .link] := by
  rcases planned.mem_writes.mp member with selected | ⟨off, -, -, rfl⟩
  · obtain ⟨entry, known, -, rfl⟩ := mem_selection.mp selected
    have phase : (entry.write .unconditional).phase = entry.phase := rfl
    rw [phase]
    rcases own with matrix | ⟨family, channel, link⟩ | ⟨channel, mute⟩
    · rw [generated.matrix_phase known matrix]
      decide
    · rw [generated.link_entry loaded known link]
      decide
    · obtain ⟨own, value, -, small, rfl⟩ :=
        generated.mute_word loaded known (Or.inr (Or.inr ⟨channel, mute⟩))
      rcases small with rfl | rfl
      · show Phase.playbackMuteOff ∈ _
        decide
      · show Phase.playbackMuteOn ∈ _
        decide
  · show Phase.playbackMuteOn ∈ _
    decide

end Planned

/-- Leaving out writes of other paths leaves a release as it is. -/
theorem UnmutedBehind.restrict {config : Config} {confirmed : List Path} {writes : List Write}
    {left : ℕ} (behind : UnmutedBehind config confirmed writes left) (keep : Write → Bool)
    (keeps : ∀ write ∈ writes, write.path.isMix ∨ (∃ family channel, write.path = .link family channel)
      ∨ (∃ channel, write.path = mutePath channel) → keep write = true) :
    UnmutedBehind config confirmed (writes.filter keep) left where
  ordered := behind.ordered.sublist (List.filter_sublist.filterMap _)
  muted channel own := by
    obtain ⟨on, off, both, facts⟩ := behind.muted channel own
    refine ⟨on, off, ?_, facts⟩
    rw [← both, List.filter_filter]
    refine List.filter_congr fun write member => ?_
    by_cases mute : write.path = mutePath channel
    · simp [keeps write member (Or.inr (Or.inr ⟨channel, mute⟩))]
    · simp [mute]
  linked route known own link needs := by
    rcases behind.linked route known own link needs with inConfirmed | ⟨write, member, path⟩
    · exact Or.inl inConfirmed
    · have shape := Generated.mem_linkPaths needs
      rw [← path] at shape
      exact Or.inr ⟨write, List.mem_filter.mpr ⟨member, keeps write member (Or.inr (Or.inl shape))⟩,
        path⟩
  covered := by
    obtain ⟨device, modelled, all⟩ := behind.covered
    refine ⟨device, modelled, fun out exists' source own => ?_⟩
    obtain ⟨route, known, desk, inSource, inOutput, message, inCells, path, write, member, same⟩ :=
      all out exists' source own
    have matrix : write.path.isMix = true := by
      show write.message.path.isMix = true
      rw [same, path]
      rfl
    exact ⟨route, known, desk, inSource, inOutput, message, inCells, path, write,
      List.mem_filter.mpr ⟨member, keeps write member (Or.inl matrix)⟩, same⟩

/-- A repair that switches a channel OFF keeps every write of the release. -/
theorem repair_unmutedBehind {config : Config} {confirmed : List Path} {observed : Option Reports}
    {result : Plan} (repaired : matrixRepairPlan config confirmed observed = .ok result)
    {entries channels globals : List Entry} (generated : Generated config entries channels globals)
    {declared added : List Route} {mirrors : List Mirror}
    (loaded : Loaded config declared added mirrors) (once : ReleasedOnce config) {channel : ℕ}
    (switches : SwitchesOff result.writes channel) :
    UnmutedBehind config confirmed result.writes (pairLeft channel) := by
  unfold matrixRepairPlan at repaired
  obtain ⟨wanted, plannedRead, same⟩ := bind_eq_ok.mp repaired
  have same := pure_eq_ok.mp same
  obtain ⟨others, skip, planned⟩ := applicationPlan_planned plannedRead
  have sameEntries : entries = others :=
    Except.ok.inj (generated.desired.symm.trans planned.desired)
  subst sameEntries
  obtain ⟨write, member, path, args⟩ := switches
  have inWanted : write ∈ wanted.writes := by
    rw [← same] at member
    exact (List.mem_filter.mp member).1
  have switches : SwitchesOff wanted.writes channel := ⟨write, inWanted, path, args⟩
  obtain ⟨-, selected⟩ := planned.switched_off generated loaded switches
  have muting : (wanted.writes.any fun write =>
      decide (write.phase = .playbackMuteOn) || decide (write.phase = .playbackMuteOff)) = true :=
    List.any_eq_true.mpr ⟨offWrite channel, planned.mem_writes.mpr (Or.inl selected), rfl⟩
  have behind := planned.unmutedBehind generated loaded once switches
  rw [← same]
  simp only [muting, if_true]
  refine behind.restrict _ fun write member own => ?_
  exact List.contains_iff_mem.mpr (planned.release_phases generated loaded member own)

/-! ### The result -/

/-- Plans release playback channels behind their columns, each flag once, exactly where every
released mute is declared by one section. -/
theorem releases_behind_iff {config : Config} (accepted : Accepted config) :
    ReleasesBehind config ↔ ReleasedOnce config := by
  obtain ⟨declared, added, mirrors, loaded⟩ := accepted.loaded
  obtain ⟨entries, channels, globals, generated⟩ := loaded.generated
  constructor
  · rintro ⟨plans, -⟩ channel muted
    -- An initial start leaves nothing alone, so it releases every declared release.
    have free : ¬ Stuck config .initial [] := fun stuck => Bool.false_ne_true stuck.1
    obtain ⟨result, returned⟩ :=
      (generated.applicationPlan_iff loaded .initial [] none).mpr free
    obtain ⟨others, skip, planned⟩ := applicationPlan_planned returned
    have sameEntries : entries = others :=
      Except.ok.inj (generated.desired.symm.trans planned.desired)
    subst sameEntries
    have sameSkip : [] = skip := Except.ok.inj planned.left
    subst sameSkip
    have kept : result.retained = [] := by
      rw [planned.retained, protectedEntries_none config [] fun _ => List.not_mem_nil]
      rfl
    have selected : offWrite channel ∈ selection entries result.retained :=
      Planned.mem_selection.mpr
        ⟨_, generated.muteEntry_mem loaded muted, kept ▸ List.not_mem_nil, rfl⟩
    have switches : SwitchesOff result.writes channel :=
      ⟨_, planned.mem_writes.mpr (Or.inl selected), rfl, rfl⟩
    have behind := plans .initial [] [] none result returned channel switches
    have own : channel = pairLeft channel ∨ channel = pairLeft channel + 1 := by
      unfold pairLeft
      omega
    obtain ⟨on, off, both, -⟩ := behind.muted channel own
    rw [planned.release_writes generated loaded muted (kept ▸ List.not_mem_nil)] at both
    have lengths := congrArg List.length both
    simp only [List.length_append, List.length_replicate, List.length_cons, List.length_nil]
      at lengths
    omega
  · intro once
    refine ⟨fun intent leaveAlone confirmed observed result returned channel switches => ?_,
      fun confirmed observed result repaired channel switches =>
        repair_unmutedBehind repaired generated loaded once switches⟩
    obtain ⟨others, skip, planned⟩ := applicationPlan_planned returned
    have sameEntries : entries = others :=
      Except.ok.inj (generated.desired.symm.trans planned.desired)
    subst sameEntries
    exact planned.unmutedBehind generated loaded once switches

/-- A release of playback 1/2 on every output. -/
def releasedPair : IniFile where
  sections :=
    .single "playback:1" "mute" "off" :: .single "playback:2" "mute" "off"
      :: wholePair
  distinct := by decide

theorem releasedPair_behind : ReleasesBehind (configOf releasedPair) := by
  refine (releases_behind_iff (accepted_configOf (by decide +kernel))).mpr ?_
  rintro channel ⟨setting, member, -, -, rfl, -⟩
  have once : ∀ setting ∈ (configOf releasedPair).channels,
      ((configOf releasedPair).channels.map ChannelSetting.path).count (mutePath setting.channel)
        = 1 := by decide +kernel
  exact once setting member

/-- The same release, declared for one channel under two spellings of its number. -/
def doubledRelease : IniFile where
  sections :=
    .single "playback:1" "mute" "off" :: .single "playback:01" "mute" "off"
      :: .single "playback:2" "mute" "off" :: wholePair
  distinct := by decide

theorem doubledRelease_twice :
    Accepted (configOf doubledRelease) ∧ ¬ ReleasesBehind (configOf doubledRelease) := by
  refine ⟨accepted_configOf (by decide +kernel), ?_⟩
  rintro ⟨plans, -⟩
  have evaluated : (applicationPlan (configOf doubledRelease) .initial).toOption.map (fun plan =>
      ((plan.writes.filter (·.path = mutePath 1)).length,
        plan.writes.any fun write => write.path = mutePath 1 && write.args = [.int 0]))
      = some (4, true) := by decide +kernel
  cases returned : applicationPlan (configOf doubledRelease) .initial with
  | error problem =>
      rw [returned] at evaluated
      cases evaluated
  | ok plan =>
      rw [returned] at evaluated
      obtain ⟨four, off⟩ := Prod.mk.inj (Option.some.inj evaluated)
      obtain ⟨write, member, switches⟩ := List.any_eq_true.mp off
      have facts : write.path = mutePath 1 ∧ write.args = [.int 0] := by simpa using switches
      have behind := plans .initial [] [] none plan returned 1 ⟨write, member, facts⟩
      obtain ⟨first, last, both, -⟩ := behind.muted 1 (Or.inl rfl)
      rw [both] at four
      cases four

end OscmixDesk
