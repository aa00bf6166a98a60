/-
**One value for each register.**

The routes, the silent cells and the global settings write a register once and keep apart from each
other. What the loader leaves open is two words of the sections for one register (`[output:1]` and
`[output:01]` are one output) and an output's volume in a route and in its section. Without these
(`NoOverlap`) a file asks a register for one value and a plan writes it once, a released mute apart;
with one of them it does not (`oneValue_iff`).
-/

import OscmixDesk.Proof.Mutes

set_option maxRecDepth 100000

namespace OscmixDesk

open Checks

/-! ### The overlaps -/

/-- No two channel settings name one register, and no output has its volume both from a route and
from its section. -/
def NoOverlap (config : Config) : Prop :=
  (config.channels.map ChannelSetting.path).Nodup
    ∧ ∀ route ∈ config.routes, route.volume ≠ none → ∀ out ∈ route.output.toList,
      Path.volume out ∉ config.channels.map ChannelSetting.path

/-- The path of a route's entry is a link, a crosspoint, or the volume of an output of a route that
declares one. -/
theorem routed_shape {routes : List Route} {entry : Entry}
    (member : entry ∈ (routeEntries routes).items) :
    (∃ family channel, entry.path = .link family channel) ∨ entry.path.isMix
      ∨ ∃ route ∈ routes, route.volume ≠ none ∧ ∃ out ∈ route.output.toList,
        entry.path = .volume out := by
  obtain ⟨route, known, cases⟩ := (mem_producedEntries routes).mp (mem_produced routes member)
  rcases cases with ⟨message, link, rfl⟩ | ⟨message, mix, rfl⟩
  · rcases mem_linkMessages.mp link with rfl | rfl
    · exact Or.inl ⟨_, _, rfl⟩
    · exact Or.inl ⟨_, _, rfl⟩
  · rcases List.mem_append.mp mix with cell | volume
    · obtain ⟨out, -, level, pan, rfl⟩ := mem_cellMessages cell
      exact Or.inr (Or.inl rfl)
    · obtain ⟨own, held, out, inOutput, rfl⟩ := mem_volumeMessages.mp volume
      exact Or.inr (Or.inr ⟨route, known, by simp [held], out, inOutput, rfl⟩)

/-- The volume a route declares is a register of the routes. -/
theorem volume_routed {routes : List Route} {route : Route} (known : route ∈ routes)
    (declared : route.volume ≠ none) {out : ℕ} (inOutput : out ∈ route.output.toList) :
    Path.volume out ∈ (routeEntries routes).keys := by
  obtain ⟨volume, held⟩ := Option.ne_none_iff_exists'.mp declared
  refine (mem_keys routes _).mpr ⟨_, (mem_producedEntries routes).mpr ⟨route, known, Or.inr
    ⟨⟨.volume out, "f", [.real volume]⟩, List.mem_append_right _ ?_, rfl⟩⟩, rfl⟩
  exact mem_volumeMessages.mpr ⟨volume, held, out, inOutput, rfl⟩

namespace Loaded

variable {config : Config} {declared added : List Route} {mirrors : List Mirror}

/-- No section sets a link. -/
theorem setting_not_link (loaded : Loaded config declared added mirrors)
    {setting : ChannelSetting} (member : setting ∈ config.channels) :
    setting.option ≠ .flat "stereo" := by
  obtain ⟨device, modelled, row, resolved, -⟩ := loaded.settings setting member
  obtain ⟨known, template, settable, -⟩ := optionRegister_eq_some resolved
  intro stereo
  have link : row.template = .channel setting.family (.flat "stereo") := stereo ▸ template
  exact (deviceForName_tabled modelled).settable_ne_link known
    (Option.isSome_iff_ne_none.mp settable) link

end Loaded

/-! ### The entries -/

namespace Generated

variable {config : Config} {entries channels globals : List Entry}

/-- The routes and the silent cells write every register once. -/
theorem matrix_distinct :
    ((orderedEntries config.routes ++ silentEntries config).map (·.path)).Nodup := by
  rw [List.map_append, List.nodup_append]
  refine ⟨orderedEntries_distinct _, silent_distinct, ?_⟩
  rintro path routed other silenced rfl
  obtain ⟨entry, silent, rfl⟩ := List.mem_map.mp silenced
  obtain ⟨own, ordered, same⟩ := List.mem_map.mp routed
  exact silent_not_routed silent (same ▸ List.mem_map_of_mem ((mem_ordered _).mp ordered))

theorem globals_distinct (generated : Generated config entries channels globals)
    {declared added : List Route} {mirrors : List Mirror}
    (loaded : Loaded config declared added mirrors) : (globals.map (·.path)).Nodup := by
  rw [generated.global_paths]
  have keys := List.pairwise_map.mp loaded.globalsDistinct
  exact List.pairwise_map.mpr (keys.imp fun apart same => apart (globalPath_injective same))

/-- The matrix part overlaps the settings only in volumes that a route declares. -/
theorem matrix_overlap {declared added : List Route} {mirrors : List Mirror}
    (loaded : Loaded config declared added mirrors) {entry : Entry}
    (member : entry ∈ orderedEntries config.routes ++ silentEntries config)
    (overlaps : entry.path ∈ config.channels.map ChannelSetting.path) :
    ∃ route ∈ config.routes, route.volume ≠ none ∧ ∃ out ∈ route.output.toList,
      Path.volume out ∈ config.channels.map ChannelSetting.path := by
  obtain ⟨setting, known, same⟩ := List.mem_map.mp overlaps
  rcases List.mem_append.mp member with routed | silent
  · rcases routed_shape ((mem_ordered _).mp routed) with ⟨family, channel, link⟩ | mix | volume
    · exact absurd (Path.channel.inj (same.trans link)).2.2 (loaded.setting_not_link known)
    · rw [← same] at mix
      cases mix
    · obtain ⟨route, inRoutes, declares, out, inOutput, path⟩ := volume
      exact ⟨route, inRoutes, declares, out, inOutput, path ▸ overlaps⟩
  · obtain ⟨⟨target, kind, channel, mix⟩, -⟩ := silent_shape silent
    cases same.trans mix

/-- No other generator writes a register without a channel. -/
theorem global_apart (generated : Generated config entries channels globals) {entry : Entry}
    (member : entry ∈ orderedEntries config.routes ++ silentEntries config ++ channels) :
    entry.path ∉ globals.map (·.path) := by
  rw [generated.global_paths, List.mem_map]
  rintro ⟨setting, -, same⟩
  obtain ⟨family, option, global⟩ := globalPath_shape setting
  rw [global] at same
  rcases List.mem_append.mp member with matrix | channel
  · rcases List.mem_append.mp matrix with routed | silent
    · rcases routed_shape ((mem_ordered _).mp routed) with
        ⟨_, _, link⟩ | mix | ⟨_, -, -, _, -, volume⟩
      · cases same.trans link
      · rw [← same] at mix
        cases mix
      · cases same.trans volume
    · obtain ⟨⟨_, _, _, mix⟩, -⟩ := silent_shape silent
      cases same.trans mix
  · have own : entry.path ∈ channels.map (·.path) := List.mem_map_of_mem channel
    rw [generated.channel_paths] at own
    obtain ⟨setting, -, path⟩ := List.mem_map.mp own
    cases same.trans path.symm

/-- The registers of a file are distinct exactly when no words for them overlap. -/
theorem distinct_iff (generated : Generated config entries channels globals)
    {declared added : List Route} {mirrors : List Mirror}
    (loaded : Loaded config declared added mirrors) :
    (entries.map (·.path)).Nodup ↔ NoOverlap config := by
  rw [(generated.perm.map _).nodup_iff, List.map_append, List.nodup_append, List.map_append,
    List.nodup_append, generated.channel_paths]
  constructor
  · rintro ⟨⟨-, settings, apart⟩, -, -⟩
    refine ⟨settings, fun route known declares out inOutput overlap => ?_⟩
    obtain ⟨entry, held, path⟩ := List.mem_map.mp (volume_routed known declares inOutput)
    have inMatrix : Path.volume out
        ∈ (orderedEntries config.routes ++ silentEntries config).map (·.path) :=
      path ▸ List.mem_map_of_mem (List.mem_append_left _ ((mem_ordered _).mpr held))
    exact apart _ inMatrix _ overlap rfl
  · rintro ⟨settings, volumes⟩
    refine ⟨⟨matrix_distinct, settings, ?_⟩, generated.globals_distinct loaded, ?_⟩
    · rintro path matrix other overlap rfl
      obtain ⟨entry, member, rfl⟩ := List.mem_map.mp matrix
      obtain ⟨route, known, declares, out, inOutput, both⟩ :=
        matrix_overlap loaded member overlap
      exact volumes route known declares out inOutput both
    · rintro path own other global rfl
      rw [← generated.channel_paths, ← List.map_append] at own
      obtain ⟨entry, member, rfl⟩ := List.mem_map.mp own
      exact generated.global_apart member global

end Generated

/-! ### The plans -/

/-- The two writes of one mute that a plan releases: ON first, OFF after. -/
def MuteBracket (first second : Write) : Prop :=
  ∃ channel, first.path = mutePath channel ∧ first.args = [.int 1]
    ∧ first.phase = .playbackMuteOn ∧ second.args = [.int 0] ∧ second.phase = .playbackMuteOff

/-- Writes in the order of the phases, crosspoints in the phase of the mix, every register once, a
mute that is switched ON before and OFF after them apart. -/
structure WrittenOnce (writes : List Write) : Prop where
  phased : Phased writes
  matrix : ∀ write ∈ writes, write.path.isMix → write.phase = .mix
  once : writes.Pairwise fun first second => first.path = second.path → MuteBracket first second

/-- A file asks a register for one value, and every plan writes it once. -/
def OneValue (config : Config) : Prop :=
  ∃ entries, desired config = .ok entries ∧ (entries.map (·.path)).Nodup
    ∧ ∀ intent leaveAlone confirmed observed result,
      applicationPlan config intent leaveAlone confirmed observed = .ok result →
        WrittenOnce result.writes

namespace Generated

variable {config : Config} {entries channels globals : List Entry}
  {declared added : List Route} {mirrors : List Mirror}

/-- A crosspoint is an entry of the phase of the mix. -/
theorem matrix_phase (generated : Generated config entries channels globals) {entry : Entry}
    (member : entry ∈ entries) (matrix : entry.path.isMix) : entry.phase = .mix := by
  rcases generated.mem_iff.mp member with routed | silent | channel | global
  · obtain ⟨route, -, ⟨message, link, rfl⟩ | ⟨message, mix, rfl⟩⟩ :=
      (mem_producedEntries _).mp (mem_produced _ routed)
    · rcases mem_linkMessages.mp link with rfl | rfl <;> cases matrix
    · rfl
  · exact (silent_shape silent).2.1
  · obtain ⟨setting, -, device, -, shape, -⟩ := exists_left generated.channels channel
    rw [shape.path] at matrix
    cases matrix
  · obtain ⟨setting, -, device, -, shape, -⟩ := exists_left generated.globals global
    obtain ⟨family, option, path⟩ := globalPath_shape setting
    rw [shape.path, path] at matrix
    cases matrix

end Generated

theorem selection_distinct {entries : List Entry} (distinct : (entries.map (·.path)).Nodup)
    (retained : List Path) : ((selection entries retained).map (·.path)).Nodup := by
  unfold selection
  rw [((bucketSort_writes_perm _).map _).nodup_iff, List.map_map]
  exact distinct.sublist (List.filter_sublist.map _)

/-- At most one selected write is for a path. -/
theorem selected_once {entries : List Entry} (distinct : (entries.map (·.path)).Nodup)
    (retained : List Path) (path : Path) :
    (selection entries retained).filter (·.path = path) = []
      ∨ ∃ write ∈ selection entries retained,
        (selection entries retained).filter (·.path = path) = [write] := by
  cases own : (selection entries retained).filter (·.path = path) with
  | nil => exact Or.inl rfl
  | cons write rest =>
      have inFilter (other : Write) (member : other ∈ write :: rest) :
          other ∈ selection entries retained ∧ other.path = path := by
        rw [← own] at member
        obtain ⟨known, same⟩ := List.mem_filter.mp member
        exact ⟨known, by simpa using same⟩
      have nodup : ((write :: rest).map (·.path)).Nodup :=
        own ▸ (selection_distinct distinct retained).sublist (List.filter_sublist.map _)
      refine Or.inr ⟨write, (inFilter write List.mem_cons_self).1, ?_⟩
      cases rest with
      | nil => rfl
      | cons second others =>
          have one := (inFilter write List.mem_cons_self).2
          have two := (inFilter second (List.mem_cons_of_mem _ List.mem_cons_self)).2
          rw [List.map_cons, List.map_cons, one, two] at nodup
          exact absurd List.mem_cons_self (List.nodup_cons.mp nodup).1

/-- Where the entries are distinct, a plan writes a register once, a released mute apart. -/
theorem Planned.writtenOnce {config : Config} {intent : ApplyIntent}
    {leaveAlone confirmed : List Path} {observed : Option Reports}
    {entries channels globals : List Entry} {skip : List Path} {result : Plan}
    (planned : Planned config intent leaveAlone confirmed observed entries skip result)
    (generated : Generated config entries channels globals) {declared added : List Route}
    {mirrors : List Mirror} (loaded : Loaded config declared added mirrors)
    (distinct : (entries.map (·.path)).Nodup) : WrittenOnce result.writes where
  phased := planned.phased
  matrix write member isMix := by
    rcases planned.mem_writes.mp member with selected | ⟨off, selected, isOff, rfl⟩
    · obtain ⟨entry, known, -, rfl⟩ := mem_selection.mp selected
      exact generated.matrix_phase known isMix
    · obtain ⟨entry, known, -, rfl⟩ := mem_selection.mp selected
      have phase := generated.matrix_phase known isMix
      cases phase.symm.trans isOff
  once := by
    rw [pairwise_same_key]
    intro path
    rw [planned.writes, filter_bucketSort, List.filter_append]
    rw [Planned.releases_filter]
    rcases selected_once distinct result.retained path with none | ⟨write, member, one⟩
    · simp [none, bucketSort_nil]
    · rw [one]
      by_cases isOff : write.phase = .playbackMuteOff
      · obtain ⟨entry, known, -, rfl⟩ := mem_selection.mp member
        obtain ⟨channel, value, -, small, rfl⟩ :=
          generated.mute_word loaded known (Or.inr (Or.inl isOff))
        have zero : value = 0 := by
          rcases small with zero | rfl
          · exact zero
          · cases isOff
        subst zero
        have sorted : bucketSort Phase.order Write.phase
            (([(muteEntry channel 0).write .unconditional].filter
              (·.phase = .playbackMuteOff)).map prerequisiteOn
              ++ [(muteEntry channel 0).write .unconditional])
            = [prerequisiteOn ((muteEntry channel 0).write .unconditional),
              (muteEntry channel 0).write .unconditional] := rfl
        rw [sorted, List.pairwise_pair]
        exact ⟨channel, rfl, rfl, rfl, rfl, rfl⟩
      · have alone : [write].filter (·.phase = .playbackMuteOff) = [] := by simp [isOff]
        rw [alone, List.map_nil, List.nil_append]
        rw [(bucketSort_writes_perm [write]).eq_singleton]
        exact List.pairwise_singleton _ _

/-! ### The result -/

instance (config : Config) : Decidable (NoOverlap config) :=
  inferInstanceAs (Decidable (_ ∧ _))

/-- Each register has one value exactly where no two words of the file are for one register. -/
theorem oneValue_iff {config : Config} (accepted : Accepted config) :
    OneValue config ↔ NoOverlap config := by
  obtain ⟨declared, added, mirrors, loaded⟩ := accepted.loaded
  obtain ⟨entries, channels, globals, generated⟩ := loaded.generated
  constructor
  · rintro ⟨others, read, distinct, -⟩
    obtain rfl : entries = others := Except.ok.inj (generated.desired.symm.trans read)
    exact (generated.distinct_iff loaded).mp distinct
  · intro noOverlap
    have distinct := (generated.distinct_iff loaded).mpr noOverlap
    refine ⟨entries, generated.desired, distinct, ?_⟩
    intro intent leaveAlone confirmed observed result planned
    obtain ⟨others, skip, plan⟩ := applicationPlan_planned planned
    obtain rfl : entries = others := Except.ok.inj (generated.desired.symm.trans plan.desired)
    exact plan.writtenOnce generated loaded distinct

/-- A route with a volume beside the section of another output. -/
def separateVolumes : IniFile where
  sections :=
    [⟨"route:main", [("playback", "1/2"), ("output", "1/2"), ("volume", "-10")], by decide⟩,
      ⟨"output:3", [("volume", "-20"), ("mute", "off")], by decide⟩]
  distinct := by decide

theorem separateVolumes_oneValue : OneValue (configOf separateVolumes) :=
  (oneValue_iff (accepted_configOf (by decide +kernel))).mpr (by decide +kernel)

/-- One output under two spellings of its number, with two volumes. -/
def twoSpellings : IniFile where
  sections :=
    [.single "output:1" "volume" "-10", .single "output:01" "volume" "-20"]
  distinct := by decide

theorem twoSpellings_twoValues :
    Accepted (configOf twoSpellings) ∧ ¬ OneValue (configOf twoSpellings) := by
  refine ⟨accepted_configOf (by decide +kernel), ?_⟩
  rintro ⟨entries, read, distinct, -⟩
  have repeated : (desired (configOf twoSpellings)).toOption.map
      (fun entries => decide (entries.map (·.path)).Nodup) = some false := by decide +kernel
  rw [read] at repeated
  simp [Except.toOption, distinct] at repeated

end OscmixDesk
