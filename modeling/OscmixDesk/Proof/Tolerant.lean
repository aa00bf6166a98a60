/-
**Tolerant loads.**

A tolerant load passes over the sections that the device in use has no meaning for: one under a name that nothing
knows, and a channel section of a family that the device has no settable rows of. A strict load refuses them.

* `dispatch_kept` — reading the sections, with the ignored ones and without;
* `strict_iff` — a strict load is a tolerant one that ignores nothing;
* `load_kept_of_unstated` — where no ignored section states a mirror, the ignored ones are as good as absent.
-/

import OscmixDesk.Proof.Layers

namespace OscmixDesk

open Checks

/-! ### Which sections are ignored -/

/-- A section whose name no parser takes. -/
def isUnknown (device : Option Device) (ini : IniSection) : Bool :=
  ini.name ≠ "device" && ini.name ≠ "osc" && ini.name ≠ "desk"
    && !"route:".toList.isPrefixOf ini.name.toList && !(channelFamily ini).isSome && ini.name ≠ "pin"
    && !isGlobalFamily device ini.name && !isNestedSection device ini

/-- A channel section of a family that the device has no settable rows of. -/
def isUnsupported (device : Option Device) (ini : IniSection) : Bool :=
  match channelFamily ini with
  | some family =>
      family ≠ .playback && (settableOptionRows device family).isEmpty
        && (Text.readInt (Text.strip ini.tail)).isSome
  | none => false

def isIgnored (device : Option Device) (ini : IniSection) : Bool :=
  isUnknown device ini || isUnsupported device ini

namespace IniFile

/-- The device name that a file's `[device]` section leaves. -/
def deviceName (file : IniFile) (onto : Config) : String :=
  (file.sections.filter (·.name = "device")).foldl
    (fun name ini => String.ofList (Text.strip ((ini.get? "name").getD name).toList)) onto.deviceName

/-- The device that a load of the file is for. -/
def device (file : IniFile) (onto : Config) (overrides : Overrides) : Option Device :=
  deviceForName (overrides.named.getD (file.deviceName onto))

/-- The sections that a tolerant load ignores. -/
def ignored (file : IniFile) (onto : Config) (overrides : Overrides) : List IniSection :=
  file.sections.filter (isIgnored (file.device onto overrides))

/-- The file without them. -/
def kept (file : IniFile) (onto : Config) (overrides : Overrides) : IniFile where
  sections := file.sections.filter (!isIgnored (file.device onto overrides) ·)
  distinct := file.distinct.sublist (List.filter_sublist.map _)

end IniFile

/-! ### Reading the sections -/

/-- A draft without the collected sections that are ignored. -/
def Draft.without (device : Option Device) (draft : Draft) : Draft :=
  { draft with pending := draft.pending.filter (!isIgnored device ·) }

section Dispatch

variable {device : Option Device} {draft next : Draft} {ini : IniSection} {strict profile : Bool}

theorem parseOsc_without : parseOsc ini (draft.without device) = Draft.without device <$> parseOsc ini draft := by
  simp only [parseOsc, map_bind, map_pure]
  rfl

theorem parsePin_without : parsePin ini (draft.without device) = Draft.without device <$> parsePin ini draft := by
  simp only [parsePin, map_bind, map_pure]
  rfl

theorem parseDesk_without :
    parseDesk profile ini (draft.without device) = Draft.without device <$> parseDesk profile ini draft := by
  simp only [parseDesk, map_bind]
  refine bind_congr fun _ => ?_
  split
  · split
    · rfl
    · simp only [map_bind, map_pure]
      rfl
  · simp only [map_bind, map_pure]
    rfl

/-- A name that no parser takes fails every test on it. -/
theorem isUnknown_iff : isUnknown device ini = true ↔
    ini.name ≠ "device" ∧ ini.name ≠ "osc" ∧ ini.name ≠ "desk" ∧
      ¬"route:".toList.isPrefixOf ini.name.toList = true ∧ ¬(channelFamily ini).isSome = true ∧
      ini.name ≠ "pin" ∧ ¬isGlobalFamily device ini.name = true ∧ ¬isNestedSection device ini = true := by
  simp only [isUnknown, Bool.and_eq_true, decide_eq_true_eq, Bool.not_eq_true', Bool.not_eq_true, and_assoc]

theorem isUnsupported_channel (unsupported : isUnsupported device ini = true) :
    (channelFamily ini).isSome = true := by
  unfold isUnsupported at unsupported
  split at unsupported
  · next family found => simp [found]
  · cases unsupported

/-- Dispatching an unknown section, which a strict load refuses. -/
theorem dispatchSection_unknown (used : draft.device = device) (unknown : isUnknown device ini = true) :
    dispatchSection strict profile draft ini = (fun _ => draft) <$> ignoredSection ini.name strict := by
  obtain ⟨first, second, third, route, channel, pin, isGlobal, nested⟩ := isUnknown_iff.mp unknown
  rw [← used] at isGlobal nested
  unfold dispatchSection
  rw [if_neg first, if_neg second, if_neg third, if_neg route, if_neg channel, if_neg pin, if_neg isGlobal,
    if_neg nested]
  rfl

/-- Dispatching a channel section. -/
theorem dispatchSection_channel (channel : (channelFamily ini).isSome = true) :
    dispatchSection strict profile draft ini = .ok { draft with pending := draft.pending ++ [ini] } := by
  obtain ⟨first, second, third, route⟩ := channelFamily_own channel
  unfold dispatchSection
  rw [if_neg first, if_neg second, if_neg third, if_neg route, if_pos channel]

/-- An ignored section leaves nothing but itself, where it is collected. -/
theorem dispatchSection_ignored (used : draft.device = device) (ignored : isIgnored device ini = true) :
    ∃ next, dispatchSection false profile draft ini = .ok next ∧
      next.without device = draft.without device ∧ next.device = draft.device := by
  unfold isIgnored at ignored
  rw [Bool.or_eq_true] at ignored
  rcases ignored with unknown | unsupported
  · refine ⟨draft, ?_, rfl, rfl⟩
    rw [dispatchSection_unknown used unknown]
    rfl
  · refine ⟨_, dispatchSection_channel (isUnsupported_channel unsupported), ?_, rfl⟩
    have dropped : isIgnored device ini = true := by simp [isIgnored, unsupported]
    simp [Draft.without, dropped]

/-- A section that is not ignored does the same whether or not ignored ones were collected. -/
theorem dispatchSection_kept (other : ini.name ≠ "device") (kept : isIgnored device ini = false) :
    dispatchSection false profile (draft.without device) ini =
      Draft.without device <$> dispatchSection false profile draft ini := by
  have same : (draft.without device).device = draft.device := rfl
  unfold dispatchSection
  rw [if_neg other, if_neg other, same]
  split
  · exact parseOsc_without
  split
  · exact parseDesk_without
  split
  · simp only [map_bind, map_pure]
    rfl
  split
  · show Except.ok _ = Except.ok _
    congr 1
    simp [Draft.without, kept]
  split
  · exact parsePin_without
  split
  · rfl
  split
  · rfl
  · rfl

/-- Reading the sections after `[device]`, with the ignored ones and without. -/
theorem foldlM_kept {sections : List IniSection} (used : draft.device = device)
    (others : ∀ ini ∈ sections, ini.name ≠ "device") :
    (sections.filter (!isIgnored device ·)).foldlM (dispatchSection false profile) (draft.without device) =
      Draft.without device <$> sections.foldlM (dispatchSection false profile) draft := by
  induction sections generalizing draft with
  | nil => rfl
  | cons ini sections ih =>
      have other := others ini List.mem_cons_self
      have rest : ∀ ini ∈ sections, ini.name ≠ "device" := fun ini member =>
        others ini (List.mem_cons_of_mem _ member)
      cases ignored : isIgnored device ini with
      | true =>
          obtain ⟨next, dispatched, same, theirs⟩ := @dispatchSection_ignored device draft ini profile used ignored
          rw [List.filter_cons_of_neg (by simp [ignored]), List.foldlM_cons, dispatched, ← same,
            ih (theirs.trans used) rest]
          rfl
      | false =>
          rw [List.filter_cons_of_pos (by simp [ignored]), List.foldlM_cons, List.foldlM_cons,
            dispatchSection_kept other ignored]
          cases dispatched : dispatchSection false profile draft ini with
          | error problem => rfl
          | ok next =>
              have theirs : next.device = device :=
                (congrArg deviceForName ((dispatchSection_step dispatched).used other)).trans used
              exact ih theirs rest

end Dispatch

/-! ### The device in use -/

section Device

variable {onto : Config} {overrides : Overrides} {profile strict : Bool} {file : IniFile}

/-- The draft that a load starts from. -/
def Draft.start (onto : Config) (overrides : Overrides) : Draft :=
  { deviceName := onto.deviceName, usbId := onto.usbId, serial := onto.serial,
    oscPort := onto.oscPort, oscRecvPort := onto.oscRecvPort, overrides }

theorem parseDevice_used {ini : IniSection} {draft next : Draft} (parsed : parseDevice ini draft = .ok next) :
    next.deviceName = String.ofList (Text.strip ((ini.get? "name").getD draft.deviceName).toList) ∧
      next.overrides = draft.overrides ∧ next.pending = draft.pending ∧ next.base = draft.base := by
  unfold parseDevice at parsed
  obtain ⟨-, -, parsed⟩ := bind_eq_ok.mp parsed
  dsimp only at parsed
  split at parsed
  · obtain ⟨_, refused, -⟩ := bind_eq_ok.mp parsed
    exact absurd refused throw_ne_ok
  split at parsed
  · obtain ⟨_, refused, -⟩ := bind_eq_ok.mp parsed
    exact absurd refused throw_ne_ok
  split at parsed
  · obtain ⟨_, refused, -⟩ := bind_eq_ok.mp parsed
    exact absurd refused throw_ne_ok
  obtain rfl := pure_eq_ok.mp parsed
  exact ⟨rfl, rfl, rfl, rfl⟩

/-- Reading `[device]` names the device. -/
theorem foldlM_device {sections : List IniSection} {draft next : Draft}
    (devices : ∀ ini ∈ sections, ini.name = "device")
    (read : sections.foldlM (dispatchSection strict profile) draft = .ok next) :
    next.deviceName = sections.foldl
        (fun name ini => String.ofList (Text.strip ((ini.get? "name").getD name).toList)) draft.deviceName ∧
      next.overrides = draft.overrides ∧ next.pending = draft.pending := by
  induction sections generalizing draft with
  | nil =>
      cases read
      exact ⟨rfl, rfl, rfl⟩
  | cons ini sections ih =>
      rw [List.foldlM_cons, bind_eq_ok] at read
      obtain ⟨middle, first, rest⟩ := read
      unfold dispatchSection at first
      rw [if_pos (devices ini List.mem_cons_self)] at first
      obtain ⟨name, overrides, pending, -⟩ := parseDevice_used first
      obtain ⟨names, also, collected⟩ := ih (fun ini member => devices ini (List.mem_cons_of_mem _ member)) rest
      rw [List.foldl_cons, ← name]
      exact ⟨names, also.trans overrides, collected.trans pending⟩

/-- `[device]` is not ignored. -/
theorem isIgnored_device {device : Option Device} {ini : IniSection} (own : ini.name = "device") :
    isIgnored device ini = false := by
  have named : isUnknown device ini = false := by simp [isUnknown, own]
  unfold isIgnored
  rw [named, Bool.false_or, Bool.eq_false_iff]
  intro unsupported
  exact (channelFamily_own (isUnsupported_channel unsupported)).1 own

/-- Reading `[device]` leaves the draft for the device of the file, and nothing collected. -/
theorem device_of_read {next : Draft}
    (read : (file.sections.filter (·.name = "device")).foldlM (dispatchSection strict profile)
      (Draft.start onto overrides) = .ok next) :
    next.device = file.device onto overrides ∧ next.pending = [] := by
  obtain ⟨name, same, pending⟩ := foldlM_device (fun ini member => by
    simpa using (List.mem_filter.mp member).2) read
  refine ⟨?_, pending⟩
  unfold Draft.device Draft.used IniFile.device IniFile.deviceName
  rw [name, same]
  rfl

theorem others_of_filter {sections : List IniSection} :
    ∀ ini ∈ sections.filter (·.name ≠ "device"), ini.name ≠ "device" := by
  intro ini member
  simpa using (List.mem_filter.mp member).2

/-- Reading the sections of a file, with the ignored ones and without. -/
theorem dispatch_kept : dispatch false profile (Draft.start onto overrides) (file.kept onto overrides) =
    Draft.without (file.device onto overrides) <$> dispatch false profile (Draft.start onto overrides) file := by
  have devices : (file.kept onto overrides).sections.filter (·.name = "device") =
      file.sections.filter (·.name = "device") := by
    unfold IniFile.kept
    rw [List.filter_filter]
    apply List.filter_congr
    intro ini _
    by_cases own : ini.name = "device"
    · simp [own, isIgnored_device own]
    · simp [own]
  have others : (file.kept onto overrides).sections.filter (·.name ≠ "device") =
      (file.sections.filter (·.name ≠ "device")).filter (!isIgnored (file.device onto overrides) ·) := by
    unfold IniFile.kept
    rw [List.filter_filter, List.filter_filter]
    apply List.filter_congr
    intro ini _
    exact Bool.and_comm _ _
  unfold dispatch orderedSections
  rw [List.foldlM_append, List.foldlM_append, devices, others]
  cases read : (file.sections.filter (·.name = "device")).foldlM (dispatchSection false profile)
      (Draft.start onto overrides) with
  | error problem => rfl
  | ok named =>
      obtain ⟨used, pending⟩ := device_of_read read
      have same : named.without (file.device onto overrides) = named := by
        unfold Draft.without
        rw [pending, List.filter_nil, ← pending]
      have rest : _ = Draft.without _ <$> List.foldlM (dispatchSection false profile) named _ :=
        foldlM_kept used (@others_of_filter file.sections)
      rw [same] at rest
      exact rest

/-! ### Strict loads -/

theorem dispatchSection_strict {draft : Draft} {ini : IniSection} (known : isUnknown draft.device ini = false) :
    dispatchSection true profile draft ini = dispatchSection false profile draft ini := by
  unfold dispatchSection
  split
  · rfl
  next first =>
  split
  · rfl
  next second =>
  split
  · rfl
  next third =>
  split
  · rfl
  next route =>
  split
  · rfl
  next channel =>
  split
  · rfl
  next pin =>
  split
  · rfl
  next isGlobal =>
  split
  · rfl
  next nested =>
    have unknown := isUnknown_iff.mpr ⟨first, second, third, route, channel, pin, isGlobal, nested⟩
    rw [known] at unknown
    cases unknown

/-- A strict reading is a tolerant one that meets no unknown section. -/
theorem foldlM_strict {device : Option Device} {sections : List IniSection} {draft next : Draft}
    (used : draft.device = device) (others : ∀ ini ∈ sections, ini.name ≠ "device") :
    sections.foldlM (dispatchSection true profile) draft = .ok next ↔
      sections.foldlM (dispatchSection false profile) draft = .ok next ∧
        ∀ ini ∈ sections, isUnknown device ini = false := by
  induction sections generalizing draft with
  | nil => simp
  | cons ini sections ih =>
      have other := others ini List.mem_cons_self
      have rest : ∀ ini ∈ sections, ini.name ≠ "device" := fun ini member =>
        others ini (List.mem_cons_of_mem _ member)
      rw [List.foldlM_cons, List.foldlM_cons, List.forall_mem_cons]
      cases unknown : isUnknown device ini with
      | true =>
          rw [dispatchSection_unknown used unknown]
          constructor
          · intro refused
            obtain ⟨_, first, -⟩ := bind_eq_ok.mp refused
            cases first
          · rintro ⟨-, absurd, -⟩
            cases absurd
      | false =>
          rw [dispatchSection_strict (used ▸ unknown)]
          cases dispatched : dispatchSection false profile draft ini with
          | error problem =>
              constructor
              · intro refused
                cases refused
              · rintro ⟨refused, -⟩
                cases refused
          | ok middle =>
              have theirs : middle.device = device :=
                (congrArg deviceForName ((dispatchSection_step dispatched).used other)).trans used
              simp only [true_and]
              exact ih theirs rest

theorem mem_orderedSections {ini : IniSection} : ini ∈ orderedSections file ↔ ini ∈ file.sections := by
  unfold orderedSections
  rw [List.mem_append, List.mem_filter, List.mem_filter]
  by_cases own : ini.name = "device" <;> simp [own]

/-- `[device]` is read alike. -/
theorem foldlM_device_strict {sections : List IniSection} {draft : Draft}
    (devices : ∀ ini ∈ sections, ini.name = "device") :
    sections.foldlM (dispatchSection true profile) draft = sections.foldlM (dispatchSection false profile) draft := by
  induction sections generalizing draft with
  | nil => rfl
  | cons ini sections ih =>
      have own : dispatchSection true profile draft ini = dispatchSection false profile draft ini := by
        unfold dispatchSection
        rw [if_pos (devices ini List.mem_cons_self), if_pos (devices ini List.mem_cons_self)]
      rw [List.foldlM_cons, List.foldlM_cons, own]
      exact bind_congr fun middle => ih fun ini member => devices ini (List.mem_cons_of_mem _ member)

theorem dispatch_strict {next : Draft} :
    dispatch true profile (Draft.start onto overrides) file = .ok next ↔
      dispatch false profile (Draft.start onto overrides) file = .ok next ∧
        ∀ ini ∈ file.sections, isUnknown (file.device onto overrides) ini = false := by
  have devices : ∀ ini ∈ file.sections.filter (·.name = "device"), ini.name = "device" := by
    intro ini member
    simpa using (List.mem_filter.mp member).2
  have all : (∀ ini ∈ file.sections, isUnknown (file.device onto overrides) ini = false) ↔
      ∀ ini ∈ file.sections.filter (·.name ≠ "device"), isUnknown (file.device onto overrides) ini = false := by
    constructor
    · exact fun known ini member => known ini (List.mem_filter.mp member).1
    · intro known ini member
      by_cases own : ini.name = "device"
      · simp [isUnknown, own]
      · exact known ini (List.mem_filter.mpr ⟨member, by simpa using own⟩)
  unfold dispatch orderedSections
  rw [List.foldlM_append, List.foldlM_append, foldlM_device_strict devices, all]
  cases read : (file.sections.filter (·.name = "device")).foldlM (dispatchSection false profile)
      (Draft.start onto overrides) with
  | error problem =>
      constructor
      · intro refused
        cases refused
      · rintro ⟨refused, -⟩
        cases refused
  | ok named => exact foldlM_strict (device_of_read read).1 others_of_filter

/-! ### The collected sections -/

/-- A section adds itself to the collected channel sections where it is one. -/
theorem dispatchSection_pending {draft next : Draft} {ini : IniSection}
    (parsed : dispatchSection strict profile draft ini = .ok next) :
    next.pending = draft.pending ++ if (channelFamily ini).isSome then [ini] else [] := by
  by_cases channel : (channelFamily ini).isSome = true
  · rw [dispatchSection_channel channel] at parsed
    cases parsed
    rw [if_pos channel]
  · rw [if_neg channel, List.append_nil]
    unfold dispatchSection at parsed
    split at parsed
    · exact (parseDevice_same parsed).1.pending
    split at parsed
    · exact (parseOsc_same parsed).1.pending
    split at parsed
    · exact (parseDesk_same parsed).1.pending
    split at parsed
    · obtain ⟨route, -, parsed⟩ := bind_eq_ok.mp parsed
      obtain rfl := pure_eq_ok.mp parsed
      rfl
    split at parsed
    · exact (parsePin_same parsed).1.pending
    split at parsed
    · cases parsed
      rfl
    split at parsed
    · cases parsed
      rfl
    · obtain ⟨-, -, parsed⟩ := bind_eq_ok.mp parsed
      obtain rfl := pure_eq_ok.mp parsed
      rfl

/-- The collected channel sections are those of the file. -/
theorem mem_pending {next : Draft} (parsed : dispatch strict profile (Draft.start onto overrides) file = .ok next)
    {ini : IniSection} : ini ∈ next.pending ↔ ini ∈ file.sections ∧ (channelFamily ini).isSome = true := by
  constructor
  · have within := foldlM_invariant
      (fun state : Draft => ∀ ini ∈ state.pending, ini ∈ file.sections ∧ (channelFamily ini).isSome = true)
      (fun state section' after member holds step => by
        rw [dispatchSection_pending step]
        intro ini collected
        rcases List.mem_append.mp collected with known | new
        · exact holds ini known
        · split at new
          · next channel =>
            obtain rfl := List.mem_singleton.mp new
            exact ⟨mem_orderedSections.mp member, channel⟩
          · cases new)
      (by simp [Draft.start]) parsed
    exact within ini
  · rintro ⟨member, channel⟩
    exact dispatch_pending parsed member channel

end Device

section Collected

variable {device : Option Device} {ini : IniSection} {draft next : Draft}

theorem isUnsupported_of {family : Family} (found : channelFamily ini = some family) :
    isUnsupported device ini = true ↔ family ≠ .playback ∧ settableOptionRows device family = [] ∧
      (Text.readInt (Text.strip ini.tail)).isSome = true := by
  simp [isUnsupported, found, and_assoc]

/-- Which channel sections the device has a meaning for. -/
theorem filter_device_eq_none {family : Family} :
    (device.filter fun _ => !((settableOptionRows device family).map Prod.fst).isEmpty) = none ↔
      settableOptionRows device family = [] := by
  cases device with
  | none => simp [settableOptionRows]
  | some known => simp [Option.filter]

/-- An unsupported section is reported, and gives its mirror and no settings. -/
theorem collectSection_unsupported {strict : Bool} (unsupported : isUnsupported device ini = true) :
    collectSection device strict ini =
      (do ignoredSection ini.name strict; return ([], ← sectionMirror device ini)) := by
  obtain ⟨family, found⟩ := Option.isSome_iff_exists.mp (isUnsupported_channel unsupported)
  obtain ⟨recorded, empty, number⟩ := (isUnsupported_of found).mp unsupported
  obtain ⟨channel, numbered⟩ := Option.isSome_iff_exists.mp number
  unfold collectSection
  rw [found]
  simp only [parseChannelSection, numbered, filter_device_eq_none.mpr empty, if_neg recorded]
  cases strict <;> rfl

/-- Any other section is collected alike. -/
theorem collectSection_strict (supported : isUnsupported device ini = false) :
    collectSection device true ini = collectSection device false ini := by
  unfold collectSection
  cases found : channelFamily ini with
  | none => rfl
  | some family =>
      have same : parseChannelSection device true family ini = parseChannelSection device false family ini := by
        unfold parseChannelSection
        split
        · rfl
        · next channel numbered =>
          dsimp only
          split
          · next empty =>
            split
            · rfl
            · next recorded =>
              have unsupported := (isUnsupported_of found).mpr
                ⟨recorded, filter_device_eq_none.mp empty, by simp [numbered]⟩
              rw [supported] at unsupported
              cases unsupported
          · rfl
      dsimp only
      rw [same]

/-- A strict collection is a tolerant one that meets no unsupported section. -/
theorem parseCollected_strict : parseCollected true draft = .ok next ↔
    parseCollected false draft = .ok next ∧ ∀ ini ∈ draft.pending, isUnsupported draft.device ini = false := by
  have sections (results : List (List ChannelSetting × Option Mirror)) :
      draft.pending.mapM (collectSection draft.device true) = .ok results ↔
        draft.pending.mapM (collectSection draft.device false) = .ok results ∧
          ∀ ini ∈ draft.pending, isUnsupported draft.device ini = false := by
    apply mapM_stricter
    intro ini _ result
    cases unsupported : isUnsupported draft.device ini with
    | true =>
        rw [collectSection_unsupported unsupported]
        constructor
        · intro refused
          cases refused
        · rintro ⟨-, absurd⟩
          cases absurd
    | false => simp [collectSection_strict unsupported]
  unfold parseCollected
  simp only [bind_eq_ok, sections]
  constructor
  · rintro ⟨globals, first, nested, second, results, ⟨third, supported⟩, rest⟩
    exact ⟨⟨globals, first, nested, second, results, third, rest⟩, supported⟩
  · rintro ⟨⟨globals, first, nested, second, results, third, rest⟩, supported⟩
    exact ⟨globals, first, nested, second, results, ⟨third, supported⟩, rest⟩

/-- What the channel sections give: their settings and their mirrors. -/
def collected (results : List (List ChannelSetting × Option Mirror)) : List ChannelSetting × List Mirror :=
  ((results.map Prod.fst).flatten, results.filterMap Prod.snd)

theorem collected_cons (result : List ChannelSetting × Option Mirror)
    (results : List (List ChannelSetting × Option Mirror)) :
    collected (result :: results) =
      (result.1 ++ (collected results).1, result.2.toList ++ (collected results).2) := by
  obtain ⟨settings, mirror⟩ := result
  cases mirror <;> rfl

/-- The collection in terms of what the channel sections give. -/
theorem parseCollected_eq {strict : Bool} : parseCollected strict draft = (do
    let globals ← draft.pendingGlobals.mapM (parseGlobalSection draft.device)
    let nested ← draft.pendingNested.mapM (parseNestedSection draft.device)
    let sections ← (draft.pending.mapM (collectSection draft.device strict)).map collected
    return { draft with
      globals := globals.flatten
      channels := nested.flatten ++ sections.1
      mirrors := sections.2 }) := by
  unfold parseCollected
  refine bind_congr fun globals => bind_congr fun nested => ?_
  cases draft.pending.mapM (collectSection draft.device strict) <;> rfl

/-- An ignored section that was collected is one of a family that the device has no rows of. -/
theorem isUnsupported_of_collected (channel : (channelFamily ini).isSome = true)
    (ignored : isIgnored device ini = true) : isUnsupported device ini = true := by
  unfold isIgnored at ignored
  rw [Bool.or_eq_true] at ignored
  rcases ignored with unknown | unsupported
  · exact absurd channel (isUnknown_iff.mp unknown).2.2.2.2.1
  · exact unsupported

/-- Where no ignored section states a mirror, the collection is the same without them. -/
theorem parseCollected_kept (used : draft.device = device)
    (channels : ∀ ini ∈ draft.pending, (channelFamily ini).isSome = true)
    (unstated : ∀ ini ∈ draft.pending, isIgnored device ini = true → sectionMirror device ini = .ok none) :
    parseCollected false (draft.without device) = Draft.without device <$> parseCollected false draft := by
  have sections : ((draft.without device).pending.mapM (collectSection device false)).map collected =
      (draft.pending.mapM (collectSection device false)).map collected := by
    apply mapM_filter
    · intro result results others same
      rw [collected_cons, collected_cons, same]
    · intro ini member kept
      have ignored : isIgnored device ini = true := by simpa using kept
      refine ⟨([], none), ?_, fun results => by rw [collected_cons]; rfl⟩
      rw [collectSection_unsupported (isUnsupported_of_collected (channels ini member) ignored),
        unstated ini member ignored]
      rfl
  have same : (draft.without device).device = device := used
  rw [parseCollected_eq, parseCollected_eq, same, used, sections]
  simp only [map_bind, map_pure]
  rfl

end Collected

/-! ### The desk that a draft becomes -/

/-- The checks of a desk with all its routes. -/
def Draft.checked (whole : Draft) (base : Base) : Except Fault Config := do
  orConfig (checkDeviceChannels whole.device whole.routes)
  orConfig (checkLinkAgreement whole.routes)
  orConfig ((validateRoutePan whole.routes).mapError .routePan)
  let config := whole.frozen base
  validate config
  return config

/-- What a load does with the collected sections. -/
def Draft.finish (draft : Draft) : Except Fault Config := do
  let (whole, base) ← orConfig (deskWide draft)
  whole.checked base

theorem loadConfig_eq (file : IniFile) (onto : Config) (overrides : Overrides) (strict profile : Bool) :
    loadConfig (some file) onto overrides strict profile = (do
      let read ← orConfig (dispatch strict profile (Draft.start onto overrides) file)
      let collected ← orConfig (parseCollected strict read)
      collected.finish) := rfl

section Finish

variable {draft : Draft} {config : Config}

theorem checked_routes {base : Base} (checked : draft.checked base = .ok config) :
    config.routes = draft.routes := by
  unfold Draft.checked at checked
  obtain ⟨_, -, checked⟩ := bind_eq_ok.mp checked
  obtain ⟨_, -, checked⟩ := bind_eq_ok.mp checked
  obtain ⟨_, -, checked⟩ := bind_eq_ok.mp checked
  obtain ⟨_, -, checked⟩ := bind_eq_ok.mp checked
  obtain rfl := pure_eq_ok.mp checked
  rfl

/-- A desk is finished when its base is known, the base's routes are found, the mirrors expand and the checks
pass. -/
theorem finish_eq_ok : draft.finish = .ok config ↔ ∃ base added routes,
    checkBase draft.base = .ok base ∧ addedRoutes draft base = .ok added ∧
      expandMirrors (draft.routes ++ added) draft.mirrors = .ok routes ∧
      { draft with routes }.checked base = .ok config := by
  unfold Draft.finish deskWide
  constructor
  · intro finished
    obtain ⟨⟨whole, base⟩, wide, checked⟩ := bind_eq_ok.mp finished
    have wide := mapError_eq_ok.mp wide
    obtain ⟨own, known, wide⟩ := bind_eq_ok.mp wide
    obtain ⟨added, found, wide⟩ := bind_eq_ok.mp wide
    obtain ⟨routes, expanded, same⟩ := bind_eq_ok.mp wide
    obtain ⟨rfl, rfl⟩ := Prod.mk.inj (pure_eq_ok.mp same)
    exact ⟨own, added, routes, known, found, expanded, checked⟩
  · rintro ⟨base, added, routes, known, found, expanded, checked⟩
    rw [known]
    show (orConfig (addedRoutes draft base >>= _) >>= _) = _
    rw [found]
    show (orConfig (expandMirrors (draft.routes ++ added) draft.mirrors >>= _) >>= _) = _
    rw [expanded]
    exact checked

/-- The collected sections no longer matter. -/
theorem finish_without {device : Option Device} : (draft.without device).finish = draft.finish := by
  unfold Draft.finish deskWide
  show (orConfig (checkBase draft.base >>= _) >>= _) = _
  cases checkBase draft.base with
  | error problem => rfl
  | ok base =>
      show (orConfig (addedRoutes draft base >>= _) >>= _) = (orConfig (addedRoutes draft base >>= _) >>= _)
      cases addedRoutes draft base with
      | error problem => rfl
      | ok added =>
          show (orConfig (expandMirrors (draft.routes ++ added) draft.mirrors >>= _) >>= _) =
            (orConfig (expandMirrors (draft.routes ++ added) draft.mirrors >>= _) >>= _)
          cases expandMirrors (draft.routes ++ added) draft.mirrors <;> rfl

end Finish

section Loads

variable {file : IniFile} {onto : Config} {overrides : Overrides} {profile : Bool} {config : Config}

theorem dispatch_device {strict : Bool} {next : Draft}
    (parsed : dispatch strict profile (Draft.start onto overrides) file = .ok next) :
    next.device = file.device onto overrides := by
  unfold dispatch orderedSections at parsed
  rw [List.foldlM_append] at parsed
  obtain ⟨named, deviceRead, othersRead⟩ := bind_eq_ok.mp parsed
  refine foldlM_invariant (fun state : Draft => state.device = file.device onto overrides)
    (fun state ini after member holds step => ?_) (device_of_read deviceRead).1 othersRead
  exact (congrArg deviceForName ((dispatchSection_step step).used (others_of_filter ini member))).trans holds

theorem ignored_eq_nil : file.ignored onto overrides = [] ↔
    ∀ ini ∈ file.sections, isIgnored (file.device onto overrides) ini = false := by
  simp [IniFile.ignored, List.filter_eq_nil_iff]

/-- A strict load is a tolerant one that ignores nothing. -/
theorem strict_iff : loadConfig (some file) onto overrides true profile = .ok config ↔
    loadConfig (some file) onto overrides false profile = .ok config ∧ file.ignored onto overrides = [] := by
  rw [loadConfig_eq, loadConfig_eq, ignored_eq_nil]
  simp only [bind_eq_ok, orConfig, mapError_eq_ok, dispatch_strict, parseCollected_strict]
  constructor
  · rintro ⟨read, ⟨dispatched, known⟩, collected, ⟨parsed, supported⟩, finished⟩
    refine ⟨⟨read, dispatched, collected, parsed, finished⟩, fun ini member => ?_⟩
    unfold isIgnored
    rw [known ini member, Bool.false_or, ← dispatch_device dispatched, Bool.eq_false_iff]
    intro unsupported
    have pending := (mem_pending dispatched).mpr ⟨member, isUnsupported_channel unsupported⟩
    rw [supported ini pending] at unsupported
    cases unsupported
  · rintro ⟨⟨read, dispatched, collected, parsed, finished⟩, kept⟩
    refine ⟨read, ⟨dispatched, fun ini member => ?_⟩, collected, ⟨parsed, fun ini member => ?_⟩, finished⟩
    · exact (Bool.or_eq_false_iff.mp (kept ini member)).1
    · rw [dispatch_device dispatched]
      exact (Bool.or_eq_false_iff.mp (kept ini ((mem_pending dispatched).mp member).1)).2

/-- Where no ignored section states a mirror, a file loads as it does without the ignored ones. -/
theorem load_kept_of_unstated
    (unstated : ∀ ini ∈ file.ignored onto overrides,
      sectionMirror (file.device onto overrides) ini = .ok none) :
    loadConfig (some (file.kept onto overrides)) onto overrides false profile =
      loadConfig (some file) onto overrides false profile := by
  rw [loadConfig_eq, loadConfig_eq, dispatch_kept]
  cases dispatched : dispatch false profile (Draft.start onto overrides) file with
  | error problem => rfl
  | ok read =>
      have same := parseCollected_kept (dispatch_device dispatched)
        (fun ini member => ((mem_pending dispatched).mp member).2)
        (fun ini member ignored => unstated ini (List.mem_filter.mpr
          ⟨((mem_pending dispatched).mp member).1, ignored⟩))
      show (orConfig (parseCollected false (read.without _)) >>= _) = (orConfig (parseCollected false read) >>= _)
      rw [same]
      cases parseCollected false read with
      | error problem => rfl
      | ok collected => exact finish_without

end Loads

end OscmixDesk
