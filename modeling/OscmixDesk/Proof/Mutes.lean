/-
**Declared playback mutes.**

`MutedAs config channel value` is a word of the file on the mute of a channel. In an accepted
configuration the words on a channel agree, come for both partners of a pair, and a released pair
(`value = 0`) has a route of the desk on every cell of both columns. The entries of the mute phases
are exactly these words (`Generated.mute_iff`).
-/

import Mathlib.Data.List.Dedup
import OscmixDesk.Proof.Planning

namespace OscmixDesk

open Checks

/-- A word of the file on the mute of a playback channel. -/
def MutedAs (config : Config) (channel : ℕ) (value : ℤ) : Prop :=
  ∃ setting ∈ config.channels, setting.family = .playback ∧ setting.option = .flat "mute"
    ∧ setting.channel = channel ∧ setting.value = .int value

/-! ### Validation -/

/-- One word: what it says is kept, and an earlier word on the channel said the same. -/
theorem validatedMute_step {config : Config} {device : Option Device} {mutes next : List (ℕ × ℤ)}
    {setting : ChannelSetting} (accepted : validatedMute config device mutes setting = .ok next) :
    (∀ channel value, mutes.lookup channel = some value → next.lookup channel = some value)
      ∧ (setting.family = .playback → ∃ value, integer setting.value = .ok value
        ∧ setting.option = .flat "mute" ∧ next.lookup setting.channel = some value)
      ∧ ∀ channel value, next.lookup channel = some value → mutes.lookup channel = some value
        ∨ setting.family = .playback ∧ setting.channel = channel
          ∧ integer setting.value = .ok value := by
  unfold validatedMute at accepted
  split at accepted
  · next other =>
      cases accepted
      exact ⟨fun _ _ known => known, fun playback => absurd playback other,
        fun _ _ known => Or.inl known⟩
  next playback =>
  have playback : setting.family = .playback := not_not.mp playback
  split at accepted
  · cases accepted
  split at accepted
  · cases accepted
  split at accepted
  · cases accepted
  split at accepted
  · cases accepted
  · cases accepted
  next value _ read =>
  split at accepted
  · cases accepted
  next isMute =>
  have isMute : setting.option = .flat "mute" := not_not.mp isMute
  split at accepted
  · next fresh =>
      cases accepted
      have lookup (channel : ℕ) : (mutes ++ [(setting.channel, value)]).lookup channel
          = (mutes.lookup channel).or (if channel = setting.channel then some value else none) := by
        rw [List.lookup_append]
        congr 1
        by_cases same : channel = setting.channel
        · simp [same]
        · have other : (channel == setting.channel) = false := by simpa using same
          simp [List.lookup_cons, other, same]
      refine ⟨fun channel own known => ?_, fun _ => ⟨value, read, isMute, ?_⟩,
        fun channel own known => ?_⟩
      · rw [lookup, known, Option.some_or]
      · rw [lookup, fresh, Option.none_or, if_pos rfl]
      · rw [lookup] at known
        rcases Option.or_eq_some_iff.mp known with earlier | ⟨-, here⟩
        · exact Or.inl earlier
        · split at here
          · next same =>
              cases here
              exact Or.inr ⟨playback, same.symm, read⟩
          · cases here
  · next stated known =>
      split at accepted
      · next same =>
          cases accepted
          exact ⟨fun _ _ earlier => earlier, fun _ => ⟨value, read, isMute, same ▸ known⟩,
            fun _ _ earlier => Or.inl earlier⟩
      · cases accepted

/-- All words: each is kept, and nothing else is. -/
theorem validatedMutes_words {config : Config} {device : Option Device}
    {settings : List ChannelSetting} {start mutes : List (ℕ × ℤ)}
    (accepted : settings.foldlM (validatedMute config device) start = .ok mutes) :
    (∀ channel value, start.lookup channel = some value → mutes.lookup channel = some value)
      ∧ (∀ setting ∈ settings, setting.family = .playback → ∃ value,
        integer setting.value = .ok value ∧ setting.option = .flat "mute"
          ∧ mutes.lookup setting.channel = some value)
      ∧ ∀ channel value, mutes.lookup channel = some value → start.lookup channel = some value
        ∨ ∃ setting ∈ settings, setting.family = .playback ∧ setting.channel = channel
          ∧ integer setting.value = .ok value := by
  induction settings generalizing start with
  | nil =>
      obtain rfl : start = mutes := by simpa using accepted
      exact ⟨fun _ _ known => known, by simp, fun _ _ known => Or.inl known⟩
  | cons setting rest ih =>
      rw [List.foldlM_cons, bind_eq_ok] at accepted
      obtain ⟨next, here, there⟩ := accepted
      obtain ⟨keeps, adds, only⟩ := validatedMute_step here
      obtain ⟨keepsRest, addsRest, onlyRest⟩ := ih there
      refine ⟨fun channel value known => keepsRest _ _ (keeps _ _ known), ?_, ?_⟩
      · intro own member playback
        rcases List.mem_cons.mp member with rfl | later
        · obtain ⟨value, read, isMute, known⟩ := adds playback
          exact ⟨value, read, isMute, keepsRest _ _ known⟩
        · exact addsRest own later playback
      · intro channel value known
        rcases onlyRest channel value known with earlier | ⟨own, member, facts⟩
        · rcases only channel value earlier with first | facts
          · exact Or.inl first
          · exact Or.inr ⟨setting, List.mem_cons_self, facts⟩
        · exact Or.inr ⟨own, List.mem_cons_of_mem _ member, facts⟩

namespace Loaded

variable {config : Config} {declared added : List Route} {mirrors : List Mirror}

/-- A playback setting of an accepted configuration is a word on a mute. -/
theorem playback_setting (loaded : Loaded config declared added mirrors) {setting : ChannelSetting}
    (member : setting ∈ config.channels) (playback : setting.family = .playback) :
    setting.option = .flat "mute"
      ∧ ∃ value : ℤ, setting.value = .int value ∧ (value = 0 ∨ value = 1) := by
  obtain ⟨device, modelled, row, resolved, read⟩ := loaded.settings setting member
  obtain ⟨known, template, settable, -⟩ := optionRegister_eq_some resolved
  rw [playback] at template
  obtain ⟨isMute, bool, -⟩ := (deviceForName_tabled modelled).playback_mute known template
    (Option.isSome_iff_ne_none.mp settable)
  refine ⟨isMute, ?_⟩
  unfold ReadFor at read
  rw [bool] at read
  rcases read with zero | one
  · exact ⟨0, zero, Or.inl rfl⟩
  · exact ⟨1, one, Or.inr rfl⟩

/-- A word on a mute is on a playback channel of a modelled device. -/
theorem muted_channel (loaded : Loaded config declared added mirrors) {channel : ℕ} {value : ℤ}
    (muted : MutedAs config channel value) : ∃ device,
      deviceForName config.deviceName = some device ∧ channel ∈ device.channelsFor "playback"
        ∧ pairLeft channel % 2 = 1 := by
  obtain ⟨setting, member, playback, -, rfl, -⟩ := muted
  obtain ⟨device, modelled, row, resolved, -⟩ := loaded.settings setting member
  obtain ⟨known, template, settable, has⟩ := optionRegister_eq_some resolved
  have tabled := deviceForName_tabled modelled
  rw [playback] at template
  obtain ⟨-, -, channels⟩ := tabled.playback_mute known template
    (Option.isSome_iff_ne_none.mp settable)
  have inPlayback : setting.channel ∈ device.channelsFor "playback" :=
    List.contains_iff_mem.mp (channels ▸ has)
  obtain ⟨half, -, counted⟩ := tabled.mem_channels
  have positive := ((counted .playback setting.channel).mp inPlayback).1
  refine ⟨device, modelled, inPlayback, ?_⟩
  unfold pairLeft
  omega

/-- What the validation has established, as one list of words. -/
theorem mutes_validated (loaded : Loaded config declared added mirrors) :
    ∃ mutes : List (ℕ × ℤ),
      (∀ channel value, mutes.lookup channel = some value ↔ MutedAs config channel value)
        ∧ ∀ channel value, MutedAs config channel value →
          ∃ device, deviceForName config.deviceName = some device
            ∧ checkPartners mutes (pairLeft channel) = .ok ()
            ∧ validateRouteLinks config.routes device = .ok ()
            ∧ checkUnmute config device mutes (pairLeft channel) = .ok () := by
  have accepted := loaded.playback
  unfold validatePlaybackMute at accepted
  obtain ⟨mutes, read, accepted⟩ := bind_eq_ok.mp accepted
  obtain ⟨-, adds, only⟩ := validatedMutes_words read
  have words : ∀ channel value, mutes.lookup channel = some value
      ↔ MutedAs config channel value := by
    intro channel value
    constructor
    · intro known
      rcases only channel value known with impossible | ⟨setting, member, playback, same, whole⟩
      · cases impossible
      · obtain ⟨isMute, own, held, small⟩ := loaded.playback_setting member playback
        rw [held, integer_small small] at whole
        exact ⟨setting, member, playback, isMute, same, (Except.ok.inj whole) ▸ held⟩
    · rintro ⟨setting, member, playback, -, rfl, held⟩
      obtain ⟨own, whole, -, known⟩ := adds setting member playback
      obtain ⟨-, other, held', small⟩ := loaded.playback_setting member playback
      obtain rfl : value = other := Value.int.inj (held.symm.trans held')
      rw [held, integer_small small] at whole
      rw [known, Except.ok.inj whole]
  refine ⟨mutes, words, fun channel value muted => ?_⟩
  have known := (words channel value).mpr muted
  have pairs : pairLeft channel ∈ mutedPairs mutes := by
    unfold mutedPairs
    rw [List.mem_insertionSort, List.mem_dedup, List.mem_map]
    exact ⟨(channel, value), mem_of_lookup known, rfl⟩
  split at accepted
  · next empty =>
      rw [List.isEmpty_iff.mp empty] at known
      cases known
  split at accepted
  · cases accepted
  next device modelled =>
  obtain ⟨_, partners, accepted⟩ := bind_eq_ok.mp accepted
  obtain ⟨_, links, unmutes⟩ := bind_eq_ok.mp accepted
  exact ⟨device, modelled, forM_eq_ok.mp partners _ pairs, links,
    forM_eq_ok.mp unmutes _ pairs⟩

/-- The words on one channel agree. -/
theorem muted_unique (loaded : Loaded config declared added mirrors) {channel : ℕ}
    {first second : ℤ} (one : MutedAs config channel first) (two : MutedAs config channel second) :
    first = second := by
  obtain ⟨mutes, words, -⟩ := loaded.mutes_validated
  exact Option.some.inj (((words _ _).mpr one).symm.trans ((words _ _).mpr two))

/-- A word on a channel stands for both partners of its pair. -/
theorem muted_pair (loaded : Loaded config declared added mirrors) {channel : ℕ} {value : ℤ}
    (muted : MutedAs config channel value) :
    MutedAs config (pairLeft channel) value ∧ MutedAs config (pairLeft channel + 1) value := by
  obtain ⟨mutes, words, checks⟩ := loaded.mutes_validated
  obtain ⟨device, -, partners, -⟩ := checks channel value muted
  unfold checkPartners at partners
  split at partners
  · next odd even oddKnown evenKnown =>
      split at partners
      · next same =>
          subst same
          have own : odd = value := by
            by_cases left : channel = pairLeft channel
            · exact loaded.muted_unique ((words _ _).mp oddKnown) (left ▸ muted)
            · have right : channel = pairLeft channel + 1 := by unfold pairLeft at *; omega
              exact loaded.muted_unique ((words _ _).mp evenKnown) (right ▸ muted)
          subst own
          exact ⟨(words _ _).mp oddKnown, (words _ _).mp evenKnown⟩
      · cases partners
  · cases partners

/-- A released pair has a route of the desk on every cell of its columns. -/
theorem muted_covered (loaded : Loaded config declared added mirrors) {channel : ℕ}
    (released : MutedAs config channel 0) :
    ∃ device, deviceForName config.deviceName = some device
      ∧ validateRouteLinks config.routes device = .ok ()
      ∧ ∀ cell ∈ columnCells device (pairLeft channel),
        cell ∈ routeCells config (pairLeft channel) := by
  obtain ⟨mutes, words, checks⟩ := loaded.mutes_validated
  obtain ⟨device, modelled, -, links, unmute⟩ := checks channel 0 released
  refine ⟨device, modelled, links, fun cell member => ?_⟩
  unfold checkUnmute at unmute
  split at unmute
  · cases unmute
  next covered =>
  have zero := (words _ _).mpr (loaded.muted_pair released).1
  have none : uncoveredCells config device (pairLeft channel) = [] := by
    by_contra some
    exact covered ⟨zero, some⟩
  unfold uncoveredCells at none
  have := List.filter_eq_nil_iff.mp none cell member
  simpa using this

end Loaded

/-! ### The entries of the mute phases -/

/-- The phase a mute is written in. -/
def mutePhase (value : ℤ) : Phase :=
  if value ≠ 0 then .playbackMuteOn else .playbackMuteOff

/-- The entry of a word on a mute. -/
def muteEntry (channel : ℕ) (value : ℤ) : Entry where
  path := mutePath channel
  tags := "i"
  args := [.int value]
  phase := mutePhase value

theorem settingPhase_mute {path : Path} {number : ℤ}
    (muting : settingPhase path number = .playbackMuteOn
      ∨ settingPhase path number = .playbackMuteOff) : path.inFamily .playback = true := by
  unfold settingPhase at muting
  split at muting
  · next playback => exact (Bool.and_eq_true_iff.mp playback).1
  · split at muting
    · split at muting <;> simp at muting
    · simp at muting

theorem Encoded.phase_cases {row : Register} {value : Value} {path : Path} {entry : Entry}
    (encoded : Encoded row value path entry) :
    entry.phase = .channel ∨ ∃ number, integer value = .ok number
      ∧ entry.phase = settingPhase path number := by
  cases encoded with
  | named name number held written tags args phase => exact Or.inl phase
  | quantity number held row tags args phase => exact Or.inl phase
  | whole number held row tags args phase => exact Or.inr ⟨number, held, phase⟩

/-- The entry of a playback setting is the entry of its word. -/
theorem WrittenAs.mute {device : Device} (tabled : Tabled device) {setting : ChannelSetting}
    {entry : Entry} (written : WrittenAs device setting entry) {value : ℤ}
    (playback : setting.family = .playback) (isMute : setting.option = .flat "mute")
    (held : setting.value = .int value) (small : value = 0 ∨ value = 1) :
    entry = muteEntry setting.channel value := by
  obtain ⟨shape, row, resolved, read, encoded⟩ := written
  have path : setting.path = mutePath setting.channel := by
    unfold ChannelSetting.path mutePath
    rw [playback, isMute]
  have phase : settingPhase (mutePath setting.channel) value = mutePhase value := rfl
  obtain ⟨known, template, settable, -⟩ := optionRegister_eq_some resolved
  rw [playback] at template
  obtain ⟨-, bool, -⟩ := tabled.playback_mute known template (Option.isSome_iff_ne_none.mp settable)
  have notFloat : ¬ row.startsWith 'f' := by
    have tagged := tabled.tagged row known
    unfold Register.tagged at tagged
    rw [bool] at tagged
    simpa using tagged
  cases encoded with
  | named name number held' => rw [held] at held'; cases held'
  | quantity number held' => rw [held] at held'; cases held'
  | whole number held' _ tags args ownPhase =>
      rw [held, integer_small small] at held'
      cases held'
      rw [path, phase] at ownPhase
      cases entry
      simp only [muteEntry, Entry.mk.injEq]
      exact ⟨shape.path.trans path, tags, args, ownPhase, shape.base, shape.compared⟩

namespace Generated

variable {config : Config} {entries channels globals : List Entry}
  {declared added : List Route} {mirrors : List Mirror}

/-- Every word on a mute is written. -/
theorem muteEntry_mem (generated : Generated config entries channels globals)
    (loaded : Loaded config declared added mirrors) {channel : ℕ} {value : ℤ}
    (muted : MutedAs config channel value) : muteEntry channel value ∈ entries := by
  obtain ⟨setting, member, playback, isMute, rfl, held⟩ := muted
  obtain ⟨-, own, held', small⟩ := loaded.playback_setting member playback
  obtain rfl : value = own := Value.int.inj (held.symm.trans held')
  obtain ⟨entry, inChannels, device, modelled, written⟩ := exists_right generated.channels member
  rw [← written.mute (deviceForName_tabled modelled) playback isMute held small]
  exact generated.mem_iff.mpr (Or.inr (Or.inr (Or.inl inChannels)))

/-- An entry of a mute phase is a word on a mute, and so is an entry on a mute's path. -/
theorem mute_word (generated : Generated config entries channels globals)
    (loaded : Loaded config declared added mirrors) {entry : Entry} (member : entry ∈ entries)
    (mute : entry.phase = .playbackMuteOn ∨ entry.phase = .playbackMuteOff
      ∨ ∃ channel, entry.path = mutePath channel) :
    ∃ channel value, MutedAs config channel value ∧ (value = 0 ∨ value = 1)
      ∧ entry = muteEntry channel value := by
  rcases generated.mem_iff.mp member with routed | silent | channel | global
  · obtain ⟨route, -, ⟨message, link, rfl⟩ | ⟨message, mix, rfl⟩⟩ :=
      (mem_producedEntries _).mp (mem_produced _ routed)
    · rcases mute with on | off | ⟨channel, path⟩
      · cases on
      · cases off
      · rcases mem_linkMessages.mp link with rfl | rfl
        · simp [Message.entry, mutePath] at path
        · simp [Message.entry, mutePath] at path
    · rcases mute with on | off | ⟨channel, path⟩
      · cases on
      · cases off
      · rcases List.mem_append.mp mix with cell | volume
        · obtain ⟨out, -, level, pan, rfl⟩ := mem_cellMessages cell
          cases path
        · obtain ⟨own, -, out, -, rfl⟩ := mem_volumeMessages.mp volume
          simp [Message.entry, mutePath] at path
  · obtain ⟨⟨target, kind, channel, mix⟩, phase, -⟩ := silent_shape silent
    rcases mute with on | off | ⟨channel, path⟩
    · cases phase.symm.trans on
    · cases phase.symm.trans off
    · cases mix.symm.trans path
  · obtain ⟨setting, known, device, modelled, written⟩ := exists_left generated.channels channel
    have playback : setting.family = .playback := by
      obtain ⟨shape, row, -, -, encoded⟩ := written
      rcases encoded.phase_cases with plain | ⟨number, -, phase⟩
      · rcases mute with on | off | ⟨channel, path⟩
        · cases plain.symm.trans on
        · cases plain.symm.trans off
        · exact (Path.channel.inj (shape.path.symm.trans path)).1
      · rcases mute with on | off | ⟨channel, path⟩
        · simpa [ChannelSetting.path, Path.inFamily] using
            settingPhase_mute (Or.inl (phase.symm.trans on))
        · simpa [ChannelSetting.path, Path.inFamily] using
            settingPhase_mute (Or.inr (phase.symm.trans off))
        · exact (Path.channel.inj (shape.path.symm.trans path)).1
    obtain ⟨isMute, value, held, small⟩ := loaded.playback_setting known playback
    exact ⟨setting.channel, value, ⟨setting, known, playback, isMute, rfl, held⟩, small,
      written.mute (deviceForName_tabled modelled) playback isMute held small⟩
  · obtain ⟨setting, known, device, modelled, shape, row, -, -, encoded⟩ :=
      exists_left generated.globals global
    obtain ⟨family, option, path⟩ := globalPath_shape setting
    exfalso
    rcases mute with on | off | ⟨channel, mute⟩
    · rcases encoded.phase_cases with plain | ⟨number, -, phase⟩
      · cases plain.symm.trans on
      · rw [path] at phase
        cases settingPhase_mute (Or.inl (phase.symm.trans on))
    · rcases encoded.phase_cases with plain | ⟨number, -, phase⟩
      · cases plain.symm.trans off
      · rw [path] at phase
        cases settingPhase_mute (Or.inr (phase.symm.trans off))
    · cases (shape.path.trans path).symm.trans mute

end Generated

end OscmixDesk
