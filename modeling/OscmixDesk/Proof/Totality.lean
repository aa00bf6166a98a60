/-
**When planning returns.**

A mute that the file pins and releases is selected by every later intent, with its columns, which
are always pinned. Its links need not be: `[pin] playback.stereo = remember` leaves a link out of the
plan, and unless it was confirmed the release does not find it (`Stuck`). Nothing else keeps a plan
from being returned (`planning_returns_iff`).
-/

import OscmixDesk.Proof.Columns
import OscmixDesk.Proof.OneValue

set_option maxRecDepth 100000

namespace OscmixDesk

open Checks

/-- The policy of a path under the words of the file. -/
abbrev Config.policy (config : Config) (path : Path) : Policy :=
  policyFor path (deviceForName config.deviceName) config.policies

/-- A release that an intent selects and whose links it leaves out: the mute is pinned, and some
route from the pair needs a link that is remembered and not confirmed. -/
def Stuck (config : Config) (intent : ApplyIntent) (confirmed : List Path) : Prop :=
  intent.preservesRemember = true ∧ ∃ channel, MutedAs config channel 0
    ∧ config.policy (mutePath channel) = .pin
    ∧ ∃ route ∈ config.routes, FromPair (pairLeft channel) route
      ∧ ∃ link ∈ linkPaths route, config.policy link ≠ .pin ∧ link ∉ confirmed

/-! ### The words on the mutes -/

namespace Loaded

variable {config : Config} {declared added : List Route} {mirrors : List Mirror}

/-- The declared mutes are the words of the file. -/
theorem declaredMutes_words (loaded : Loaded config declared added mirrors) :
    ∃ mutes, declaredMutes config = .ok mutes
      ∧ ∀ channel value, lookupLast mutes channel = some value ↔ MutedAs config channel value := by
  have each : ∀ setting ∈ config.channels.filter (·.isMute), ∃ result : ℕ × ℤ,
      (do return (setting.channel, ← integer setting.value) : Except NumericProblem (ℕ × ℤ))
        = .ok result ∧ result.1 = setting.channel ∧ setting.value = .int result.2
        ∧ setting.family = .playback ∧ setting.option = .flat "mute" := by
    intro setting member
    obtain ⟨known, isMute⟩ := List.mem_filter.mp member
    unfold ChannelSetting.isMute at isMute
    obtain ⟨playback, option⟩ := Bool.and_eq_true_iff.mp isMute
    have playback : setting.family = .playback := by simpa using playback
    obtain ⟨-, value, held, small⟩ := loaded.playback_setting known playback
    refine ⟨(setting.channel, value), ?_, rfl, held, playback, by simpa using option⟩
    rw [held, integer_small small]
    rfl
  obtain ⟨mutes, read, pairs⟩ := mapM_total each
  have known : ∀ channel value, (channel, value) ∈ mutes ↔ MutedAs config channel value := by
    intro channel value
    constructor
    · intro member
      obtain ⟨setting, inSettings, same, held, playback, option⟩ := exists_left pairs member
      exact ⟨setting, (List.mem_filter.mp inSettings).1, playback, option, same.symm, held⟩
    · rintro ⟨setting, inSettings, playback, option, rfl, held⟩
      have isMute : setting.isMute = true := by simp [ChannelSetting.isMute, playback, option]
      obtain ⟨result, member, same, held', -⟩ :=
        exists_right pairs (List.mem_filter.mpr ⟨inSettings, isMute⟩)
      have equal : result = (setting.channel, value) :=
        Prod.ext same (Value.int.inj (held'.symm.trans held))
      exact equal ▸ member
  refine ⟨mutes, read, fun channel value => ⟨fun found => ?_, fun muted => ?_⟩⟩
  · exact (known channel value).mp (List.mem_reverse.mp (mem_of_lookup found))
  · have member := List.mem_reverse.mpr ((known channel value).mpr muted)
    have some : (mutes.reverse.lookup channel).isSome := by
      rw [List.lookup_isSome_iff]
      exact ⟨(channel, value), member, by simp⟩
    obtain ⟨other, found⟩ := Option.isSome_iff_exists.mp some
    have muted' := (known channel other).mp (List.mem_reverse.mp (mem_of_lookup found))
    have same : value = other := loaded.muted_unique muted muted'
    exact same ▸ found

/-- The device with declared mutes has a table that pins the playback matrix. -/
theorem muted_matrix_pinned (loaded : Loaded config declared added mirrors) {channel : ℕ}
    {value : ℤ} (muted : MutedAs config channel value) (out source : ℕ) :
    config.policy (.mix out .playback source) = .pin := by
  obtain ⟨setting, member, playback, -, rfl, -⟩ := muted
  obtain ⟨device, modelled, row, resolved, -⟩ := loaded.settings setting member
  show registerPolicy (deviceForName config.deviceName) (.mix out .playback source) = .pin
  rw [modelled]
  rcases deviceForName_cases modelled with rfl | rfl
  · show registerPolicy (some ucx2) (.mix 1 .playback 1) = .pin
    decide +kernel
  · have known := (optionRegister_eq_some resolved).1
    cases known

end Loaded

/-! ### What a later intent leaves alone -/

namespace Generated

variable {config : Config} {entries channels globals : List Entry}
  {declared added : List Route} {mirrors : List Mirror}

/-- An entry that is not the desk's own word is a base's, or its policy is not to pin it. -/
theorem isRemembered_iff {entry : Entry} :
    isRemembered config entry = true ↔ entry.base = true ∨ config.policy entry.path ≠ .pin := by
  unfold isRemembered
  simp

/-- An entry on a path that a route of the desk sets is not the base's. -/
theorem desk_entry (generated : Generated config entries channels globals) {route : Route}
    (known : route ∈ config.routes) (desk : route.base = false) {path : Path}
    (produced : path ∈ linkPaths route ∨ path ∈ mixPaths route) :
    ∃ entry ∈ entries, entry.path = path
      ∧ entry ∈ (routeEntries config.routes).items ∧ entry.base = false := by
  obtain ⟨entry, held, entryPath, ownBase⟩ := desk_winner known desk produced
  exact ⟨entry, generated.mem_iff.mpr (Or.inl held), entryPath, held, ownBase⟩

/-- An entry on a matrix register or a link that the routes set is the routes' entry. -/
theorem routed_entry (generated : Generated config entries channels globals)
    (loaded : Loaded config declared added mirrors) {entry held : Entry} (member : entry ∈ entries)
    (known : held ∈ (routeEntries config.routes).items) (same : entry.path = held.path)
    (shape : held.path.isMix ∨ ∃ family channel, held.path = .link family channel) :
    entry = held := by
  rcases generated.mem_iff.mp member with routed | silent | channel | global
  · have one := ((routeEntries config.routes).get?_eq_some held.path entry).mpr ⟨routed, same⟩
    have two := ((routeEntries config.routes).get?_eq_some held.path held).mpr ⟨known, rfl⟩
    exact Option.some.inj (one.symm.trans two)
  · exact absurd (same ▸ List.mem_map_of_mem known) (silent_not_routed silent)
  · obtain ⟨setting, inSettings, device, -, form, -⟩ := exists_left generated.channels channel
    have path : setting.path = held.path := form.path.symm.trans same
    exfalso
    rcases shape with matrix | ⟨family, number, link⟩
    · rw [← path] at matrix
      cases matrix
    · exact loaded.setting_not_link inSettings (Path.channel.inj (path.trans link)).2.2
  · obtain ⟨setting, -, device, -, form, -⟩ := exists_left generated.globals global
    obtain ⟨family, option, shape'⟩ := globalPath_shape setting
    have path : Path.global family option = held.path :=
      shape'.symm.trans (form.path.symm.trans same)
    exfalso
    rcases shape with matrix | ⟨family, number, link⟩
    · rw [← path] at matrix
      cases matrix
    · cases path.trans link

section Preserved

variable {confirmed skip : List Path} {observed : Option Reports}

/-- A pinned mute is left alone by no intent of its own. -/
theorem pinned_mute_kept (generated : Generated config entries channels globals)
    (loaded : Loaded config declared added mirrors)
    (preserved : preservedPaths config entries [] confirmed observed = .ok skip)
    (pinned : config.policy (mutePath 1) = .pin) (channel : ℕ) : mutePath channel ∉ skip := by
  intro member
  rcases (mem_preservedPaths generated.desired preserved).mp member with
    none | ⟨entry, known, same, link, -⟩ | ⟨entry, known, same, remembered⟩ | gain
  · cases none
  · obtain ⟨own, value, -, -, rfl⟩ :=
      generated.mute_word loaded known (Or.inr (Or.inr ⟨channel, same⟩))
    by_cases zero : value = 0
    · subst zero
      cases link
    · have phase : mutePhase value = .link := link
      unfold mutePhase at phase
      rw [if_pos zero] at phase
      cases phase
  · obtain ⟨own, value, -, -, rfl⟩ :=
      generated.mute_word loaded known (Or.inr (Or.inr ⟨channel, same⟩))
    rcases isRemembered_iff.mp remembered with base | other
    · cases base
    · exact other pinned
  · obtain ⟨own, same⟩ := mem_retainedGains gain
    cases same

/-- A register of the matrix or a link of the routes is left alone as its policy says. -/
theorem routed_kept (generated : Generated config entries channels globals)
    (loaded : Loaded config declared added mirrors)
    (preserved : preservedPaths config entries [] confirmed observed = .ok skip) {held : Entry}
    (known : held ∈ (routeEntries config.routes).items) (desk : held.base = false)
    (shape : held.path.isMix ∨ ∃ family channel, held.path = .link family channel) :
    held.path ∈ skip ↔ (held.phase = .link ∧ held.path ∈ confirmed)
      ∨ config.policy held.path ≠ .pin := by
  have inEntries : held ∈ entries := generated.mem_iff.mpr (Or.inl known)
  rw [mem_preservedPaths generated.desired preserved]
  constructor
  · rintro (none | ⟨entry, member, same, link, inConfirmed⟩ | ⟨entry, member, same, remembered⟩ | gain)
    · cases none
    · have equal := generated.routed_entry loaded member known same shape
      subst equal
      exact Or.inl ⟨link, inConfirmed⟩
    · have equal := generated.routed_entry loaded member known same shape
      subst equal
      rcases isRemembered_iff.mp remembered with base | policy
      · rw [desk] at base
        cases base
      · exact Or.inr policy
    · obtain ⟨own, path⟩ := mem_retainedGains gain
      exfalso
      rw [path] at shape
      rcases shape with matrix | ⟨family, number, link⟩
      · cases matrix
      · simp [gainPath] at link
  · rintro (⟨link, inConfirmed⟩ | policy)
    · exact Or.inr (Or.inl ⟨held, inEntries, rfl, link, inConfirmed⟩)
    · exact Or.inr (Or.inr (Or.inl ⟨held, inEntries, rfl, isRemembered_iff.mpr (Or.inr policy)⟩))

end Preserved

/-! ### The release -/

/-- A selected release is a word of the file, and its pair's words are the same. -/
theorem selected_release (generated : Generated config entries channels globals)
    (loaded : Loaded config declared added mirrors) {retained : List Path} {off : Write}
    (selected : off ∈ selection entries retained) (isOff : off.phase = .playbackMuteOff) :
    MutedAs config off.channel 0 ∧ off = (muteEntry off.channel 0).write .unconditional
      ∧ mutePath off.channel ∉ retained := by
  obtain ⟨entry, known, kept, rfl⟩ := Planned.mem_selection.mp selected
  obtain ⟨channel, value, muted, small, rfl⟩ :=
    generated.mute_word loaded known (Or.inr (Or.inl isOff))
  rcases small with rfl | rfl
  · exact ⟨muted, rfl, kept⟩
  · cases isOff

/-- Where everything is selected, every release finds what it needs. -/
theorem released_all (generated : Generated config entries channels globals)
    (loaded : Loaded config declared added mirrors) {retained confirmed : List Path}
    {mutes : List (ℕ × ℤ)}
    (words : ∀ channel value, lookupLast mutes channel = some value ↔ MutedAs config channel value)
    {channel : ℕ} (muted : MutedAs config channel 0)
    (mutesKept : mutePath (pairLeft channel) ∉ retained
      ∧ mutePath (pairLeft channel + 1) ∉ retained)
    (matrixKept : ∀ route ∈ config.routes, FromPair (pairLeft channel) route →
      ∀ cell ∈ mixPaths route, cell ∉ retained)
    (linksKept : ∀ route ∈ config.routes, FromPair (pairLeft channel) route →
      ∀ link ∈ linkPaths route, link ∉ retained ∨ link ∈ confirmed) :
    released mutes ((selection entries retained).map (·.path)) confirmed
      (prerequisites config channel) = true := by
  have pair := loaded.muted_pair muted
  have selected (entry : Entry) (member : entry ∈ entries) (kept : entry.path ∉ retained) :
      entry.path ∈ (selection entries retained).map (·.path) :=
    Planned.mem_selected.mpr ⟨kept, entry, member, rfl⟩
  refine released_iff.mpr ⟨⟨(words _ _).mpr pair.1, (words _ _).mpr pair.2⟩,
    ⟨selected _ (generated.muteEntry_mem loaded pair.1) mutesKept.1,
      selected _ (generated.muteEntry_mem loaded pair.2) mutesKept.2⟩, ?_⟩
  intro route known own
  have desk := loaded.released_desk muted known own
  refine ⟨fun path member => ?_, fun path member => ?_⟩
  · obtain ⟨entry, inEntries, rfl, -⟩ := generated.desk_entry known desk (Or.inr member)
    exact selected entry inEntries (matrixKept route known own _ member)
  · rcases linksKept route known own path member with kept | inConfirmed
    · obtain ⟨entry, inEntries, rfl, -⟩ := generated.desk_entry known desk (Or.inl member)
      exact Or.inl (selected entry inEntries kept)
    · exact Or.inr inConfirmed

end Generated

/-! ### The result -/

namespace Generated

variable {config : Config} {entries channels globals : List Entry}
  {declared added : List Route} {mirrors : List Mirror}

/-- The path of a link a route needs. -/
theorem mem_linkPaths {route : Route} {path : Path} (member : path ∈ linkPaths route) :
    ∃ family channel, path = .link family channel := by
  obtain ⟨message, known, rfl⟩ := List.mem_map.mp member
  rcases mem_linkMessages.mp known with rfl | rfl
  · exact ⟨_, _, rfl⟩
  · exact ⟨_, _, rfl⟩

/-- With nothing left alone by the caller, a plan is returned exactly where it is not stuck. -/
theorem applicationPlan_iff (generated : Generated config entries channels globals)
    (loaded : Loaded config declared added mirrors) (intent : ApplyIntent) (confirmed : List Path)
    (observed : Option Reports) :
    (∃ result, applicationPlan config intent [] confirmed observed = .ok result)
      ↔ ¬ Stuck config intent confirmed := by
  obtain ⟨mutes, mutesRead, words⟩ := loaded.declaredMutes_words
  obtain ⟨skip, left⟩ := leftAlone_total generated.desired intent [] confirmed observed
  rw [applicationPlan_returns generated.desired left mutesRead]
  by_cases preserves : intent.preservesRemember = true
  · have preserved : preservedPaths config entries [] confirmed observed = .ok skip := by
      unfold leftAlone at left
      rwa [if_pos preserves] at left
    constructor
    · rintro all ⟨-, channel, muted, pinned, route, known, own, link, needs, policy, unconfirmed⟩
      have free := generated.pinned_mute_kept loaded preserved pinned
      have none := protectedEntries_none config confirmed free
      rw [none, List.append_nil] at all
      have selected : (muteEntry channel 0).write .unconditional ∈ selection entries skip :=
        Planned.mem_selection.mpr
          ⟨_, generated.muteEntry_mem loaded muted, free channel, rfl⟩
      have found := released_iff.mp (all _ selected rfl)
      have desk := loaded.released_desk muted known own
      rcases (found.2.2 route known own).2 link needs with written | inConfirmed
      · obtain ⟨entry, -, rfl, routed, ownDesk⟩ := generated.desk_entry known desk (Or.inl needs)
        have kept := (Planned.mem_selected.mp written).1
        exact kept ((generated.routed_kept loaded preserved routed ownDesk
          (Or.inr (mem_linkPaths needs))).mpr (Or.inr policy))
      · exact unconfirmed inConfirmed
    · intro free off selected isOff
      obtain ⟨muted, -, kept⟩ := generated.selected_release loaded selected isOff
      have pinned : config.policy (mutePath off.channel) = .pin := by
        by_contra policy
        have inSkip : mutePath off.channel ∈ skip :=
          (mem_preservedPaths generated.desired preserved).mpr (Or.inr (Or.inr (Or.inl
            ⟨_, generated.muteEntry_mem loaded muted, rfl, isRemembered_iff.mpr (Or.inr policy)⟩)))
        exact kept (List.mem_append_left _ inSkip)
      have mutesFree := generated.pinned_mute_kept loaded preserved pinned
      have none := protectedEntries_none config confirmed mutesFree
      rw [none, List.append_nil]
      refine generated.released_all loaded words muted ⟨mutesFree _, mutesFree _⟩ ?_ ?_
      · intro route known own cell needs inSkip
        have desk := loaded.released_desk muted known own
        have kind := own.kind
        obtain ⟨out, -, path⟩ := mem_mixPaths_iff.mp needs
        rw [kind] at path
        obtain ⟨entry, inEntries, rfl, routed, ownDesk⟩ :=
          generated.desk_entry known desk (Or.inr needs)
        have matrix : entry.path.isMix = true := path ▸ rfl
        rcases (generated.routed_kept loaded preserved routed ownDesk (Or.inl matrix)).mp inSkip
          with ⟨link, -⟩ | policy
        · cases (generated.matrix_phase inEntries matrix).symm.trans link
        · rw [path] at policy
          exact policy (loaded.muted_matrix_pinned muted _ _)
      · intro route known own link needs
        by_cases inConfirmed : link ∈ confirmed
        · exact Or.inr inConfirmed
        · left
          intro inSkip
          have desk := loaded.released_desk muted known own
          obtain ⟨entry, -, rfl, routed, ownDesk⟩ := generated.desk_entry known desk (Or.inl needs)
          rcases (generated.routed_kept loaded preserved routed ownDesk
            (Or.inr (mem_linkPaths needs))).mp inSkip with ⟨-, yes⟩ | policy
          · exact inConfirmed yes
          · exact free ⟨preserves, off.channel, muted, pinned, route, known, own, entry.path, needs,
              policy, inConfirmed⟩
  · have same : skip = [] := by
      unfold leftAlone at left
      rw [if_neg preserves] at left
      exact (pure_eq_ok.mp left).symm
    subst same
    have none := protectedEntries_none config confirmed
      fun channel => (List.not_mem_nil : mutePath channel ∉ ([] : List Path))
    constructor
    · rintro - ⟨yes, -⟩
      exact preserves yes
    · rintro - off selected isOff
      obtain ⟨muted, -, -⟩ := generated.selected_release loaded selected isOff
      rw [none]
      exact generated.released_all loaded words muted ⟨List.not_mem_nil, List.not_mem_nil⟩
        (fun _ _ _ _ _ => List.not_mem_nil) fun _ _ _ _ _ => Or.inl List.not_mem_nil

end Generated

/-- `application_plan` returns under every intent, and `matrix_repair_plan` returns, exactly where
no selected release is without its links. -/
theorem planning_returns_iff {config : Config} (accepted : Accepted config) :
    (∀ intent confirmed observed,
      (∃ result, applicationPlan config intent [] confirmed observed = .ok result)
        ↔ ¬ Stuck config intent confirmed)
    ∧ ∀ confirmed observed,
      (∃ result, matrixRepairPlan config confirmed observed = .ok result)
        ↔ ¬ Stuck config .repair confirmed := by
  obtain ⟨declared, added, mirrors, loaded⟩ := accepted.loaded
  obtain ⟨entries, channels, globals, generated⟩ := loaded.generated
  refine ⟨generated.applicationPlan_iff loaded, fun confirmed observed => ?_⟩
  rw [← generated.applicationPlan_iff loaded .repair confirmed observed]
  constructor
  · rintro ⟨result, repaired⟩
    obtain ⟨wanted, planned, -⟩ := bind_eq_ok.mp repaired
    exact ⟨wanted, planned⟩
  · rintro ⟨wanted, planned⟩
    exact ⟨_, bind_eq_ok.mpr ⟨wanted, planned, rfl⟩⟩

/-- Routes of playback 1/2 to every output of the default device. -/
def wholePair : List IniSection :=
  [.route "route:a" "1/2" "1/2",
    .route "route:b" "1/2" "3/4",
    .route "route:c" "1/2" "5/6",
    .route "route:d" "1/2" "7/8",
    .route "route:e" "1/2" "9/10",
    .route "route:f" "1/2" "11/12",
    .route "route:g" "1/2" "13/14",
    .route "route:h" "1/2" "15/16",
    .route "route:i" "1/2" "17/18",
    .route "route:j" "1/2" "19/20"]

/-- A pinned release of playback 1/2 whose link the file leaves to the device. -/
def rememberedLink : IniFile where
  sections :=
    ⟨"pin", [("playback.mute", "pin"), ("playback.stereo", "remember")], by decide⟩
      :: .single "playback:1" "mute" "off"
      :: .single "playback:2" "mute" "off" :: wholePair
  distinct := by decide

/-- An explicit selection owns the link itself, so its plan is returned. -/
theorem rememberedLink_selected :
    ∃ result, applicationPlan (configOf rememberedLink) .explicit [] [] none = .ok result :=
  ((planning_returns_iff (accepted_configOf (by decide +kernel))).1 .explicit [] none).mpr
    fun stuck => Bool.false_ne_true stuck.1

/-- A later pass, with no link confirmed, is refused by the planner itself. -/
theorem rememberedLink_refused :
    Accepted (configOf rememberedLink)
      ∧ applicationPlan (configOf rememberedLink) .reconcile [] [] none
        = .error (.value (.unmuteBypass 1)) :=
  ⟨accepted_configOf (by decide +kernel), by decide +kernel⟩

end OscmixDesk
