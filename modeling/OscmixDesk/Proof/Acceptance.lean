/-
**What it means that a file was accepted.**

`loadConfig` is one long program; the proofs about accepted configurations need what its success
says and not how it runs. This module inverts it once: `ParsedRoute` and `ParsedSetting` are what
the parser has checked of one route and one setting, and `Loaded` is the whole of an accepted
configuration: its routes in the three layers they come in (the file's, the base's, the mirrors'
copies), its settings, and the checks of the desk as a whole.
-/

import OscmixDesk.Foundation.Checks
import OscmixDesk.Proof.Tables

namespace OscmixDesk

open Checks

/-! ### One route -/

/-- What the parser has checked of a route of the file. -/
structure ParsedRoute (route : Route) : Prop where
  declared : route.base = false
  original : route.mirrorOf = none
  source : ∀ channel ∈ route.source.toList, 1 ≤ channel ∧ channel ≤ 64
  output : ∀ channel ∈ route.output.toList, 1 ≤ channel ∧ channel ≤ 64
  level : levelMin ≤ route.level ∧ route.level ≤ levelMax
  volume : ∀ volume, route.volume = some volume → levelMin ≤ volume ∧ volume ≤ levelMax
  unlinked : route.output.isPair = true → route.stereo = false → route.level ≤ 0
  balanced : ∃ pan, route.checkedPan = .ok pan

theorem parseDb_bounds {raw sectionName option : String} {value : ℚ}
    (parsed : parseDb raw sectionName option = .ok value) :
    levelMin ≤ value ∧ value ≤ levelMax := by
  unfold parseDb at parsed
  split at parsed
  · cases parsed
  · split at parsed
    · next bounds => cases parsed; exact bounds
    · cases parsed
  · cases parsed

/-- An optional entry is the default or a parsed text. -/
theorem optionOr_cases {α : Type} {ini : IniSection} {option : String} {fallback value : α}
    {parse : String → Except ConfigProblem α}
    (parsed : optionOr ini option fallback parse = .ok value) :
    value = fallback ∨ ∃ raw, parse raw = .ok value := by
  unfold optionOr at parsed
  split at parsed
  · cases parsed; exact Or.inl rfl
  · next raw _ => exact Or.inr ⟨raw, parsed⟩

theorem parseChannel_range {sectionName option : String} {part : List Char} {channel : ℕ}
    (parsed : parseChannel sectionName option part = .ok channel) :
    1 ≤ channel ∧ channel ≤ 64 := by
  unfold parseChannel at parsed
  split at parsed
  · cases parsed
  split at parsed
  · next bounds =>
      cases parsed
      simp only [channelMin, channelMax] at bounds
      omega
  · cases parsed

theorem parseChannels_range {raw sectionName option : String} {channels : Channels}
    (parsed : parseChannels raw sectionName option = .ok channels) :
    ∀ channel ∈ channels.toList, 1 ≤ channel ∧ channel ≤ 64 := by
  unfold parseChannels at parsed
  dsimp only at parsed
  split at parsed
  · cases parsed
  split at parsed
  · obtain ⟨channel, read, same⟩ := bind_eq_ok.mp parsed
    obtain rfl := pure_eq_ok.mp same
    simpa [Channels.toList] using parseChannel_range read
  · obtain ⟨left, readLeft, rest⟩ := bind_eq_ok.mp parsed
    obtain ⟨right, readRight, same⟩ := bind_eq_ok.mp rest
    obtain rfl := pure_eq_ok.mp same
    simpa [Channels.toList] using ⟨parseChannel_range readLeft, parseChannel_range readRight⟩
  · cases parsed

theorem routeSource_range {ini : IniSection} {kind : Kind} {source : Channels}
    (parsed : routeSource ini = .ok (kind, source)) :
    ∀ channel ∈ source.toList, 1 ≤ channel ∧ channel ≤ 64 := by
  unfold routeSource at parsed
  split at parsed
  · cases parsed
  · cases parsed
  · obtain ⟨channels, read, same⟩ := bind_eq_ok.mp parsed
    cases pure_eq_ok.mp same
    exact parseChannels_range read
  · obtain ⟨channels, read, same⟩ := bind_eq_ok.mp parsed
    cases pure_eq_ok.mp same
    exact parseChannels_range read

theorem levels_contain_zero : levelMin ≤ 0 ∧ (0 : ℚ) ≤ levelMax := by
  constructor <;> norm_num [levelMin, levelMax]

theorem parseRoute_parsed {ini : IniSection} {route : Route}
    (parsed : parseRoute ini = .ok route) : ParsedRoute route := by
  unfold parseRoute at parsed
  obtain ⟨-, -, parsed⟩ := bind_eq_ok.mp parsed
  split at parsed
  · exact absurd parsed throw_ne_ok
  obtain ⟨⟨kind, source⟩, sourceParsed, parsed⟩ := bind_eq_ok.mp parsed
  obtain ⟨output, outputParsed, parsed⟩ := bind_eq_ok.mp parsed
  dsimp only at parsed
  split at parsed
  swap
  · exact absurd parsed throw_ne_ok
  obtain ⟨level, levelParsed, parsed⟩ := bind_eq_ok.mp parsed
  obtain ⟨volume, volumeParsed, parsed⟩ := bind_eq_ok.mp parsed
  obtain ⟨stereo, -, parsed⟩ := bind_eq_ok.mp parsed
  split at parsed
  · obtain ⟨_, refused, -⟩ := bind_eq_ok.mp parsed
    exact absurd refused throw_ne_ok
  next allowed =>
  obtain ⟨pan, -, parsed⟩ := bind_eq_ok.mp parsed
  split at parsed
  swap
  · exact absurd parsed throw_ne_ok
  next checked =>
  obtain rfl := pure_eq_ok.mp parsed
  have levelBounds : levelMin ≤ level ∧ level ≤ levelMax := by
    rcases optionOr_cases levelParsed with rfl | ⟨raw, read⟩
    · exact levels_contain_zero
    · exact parseDb_bounds read
  have volumeBounds : ∀ own, volume = some own → levelMin ≤ own ∧ own ≤ levelMax := by
    rintro own rfl
    rcases optionOr_cases volumeParsed with none | ⟨raw, read⟩
    · cases none
    · obtain ⟨value, db, same⟩ := bind_eq_ok.mp read
      obtain rfl := Option.some.inj (pure_eq_ok.mp same)
      exact parseDb_bounds db
  refine ⟨rfl, rfl, routeSource_range sourceParsed, parseChannels_range outputParsed, levelBounds,
    volumeBounds, fun pair apart => ?_, _, checked⟩
  have joined : output.isPair = true := pair
  have split : stereo = false := apart
  have : ¬ 0 < level := by simpa [joined, split] using allowed
  exact not_lt.mp this

/-! ### One setting -/

/-- What a parsed value is, by the domain of its register. -/
def ReadFor (row : Register) (value : Value) : Prop :=
  match row.domain with
  | some .bool => value = .int 0 ∨ value = .int 1
  | some .enum => ∃ name ∈ row.choices, value = .str name
  | some .number => ∃ number, value = .real number ∧ numberValue (.real number) row = .ok number
  | none => False

/-- A channel setting that resolves to a row and holds a value of its domain. -/
def ParsedSetting (device : Device) (setting : ChannelSetting) : Prop :=
  ∃ row, optionRegister (some device) setting.family setting.option setting.channel = some row
    ∧ ReadFor row setting.value

/-- A global setting that resolves to a row and holds a value of its domain. -/
def ParsedGlobal (device : Device) (setting : GlobalSetting) : Prop :=
  ∃ row, (settableGlobals (some device) setting.family).lookup setting.option = some row
    ∧ ReadFor row setting.value

/-- A quantity in its domain is the finite number it was given as. -/
theorem numberValue_finite {value : Value} {row : Register} {reported : Bool} {number : ℚ}
    (accepted : numberValue value row reported = .ok number) : finite value = .ok number := by
  unfold numberValue at accepted
  obtain ⟨own, read, accepted⟩ := bind_eq_ok.mp accepted
  have same : own = number := by
    split at accepted
    all_goals
      obtain ⟨-, -, accepted⟩ := bind_eq_ok.mp accepted
      obtain ⟨-, -, accepted⟩ := bind_eq_ok.mp accepted
      obtain ⟨-, -, accepted⟩ := bind_eq_ok.mp accepted
      exact pure_eq_ok.mp accepted
  exact same ▸ read

theorem finite_float {number : PyFloat} {value : ℚ}
    (read : finite (.float number) = .ok value) : number = .finite value := by
  cases number with
  | finite own =>
      exact congrArg PyFloat.finite (Except.ok.inj read)
  | infinite negative => cases read
  | nan => cases read

theorem parseNumber_read {raw sectionName option : String} {row : Register} {value : Value}
    (parsed : parseNumber raw sectionName option row = .ok value) :
    ∃ number, value = .real number ∧ numberValue (.real number) row = .ok number := by
  unfold parseNumber at parsed
  split at parsed
  · cases parsed
  split at parsed
  · next number _ _ own accepted =>
      cases parsed
      obtain rfl : number = .finite own := finite_float (numberValue_finite accepted)
      exact ⟨own, rfl, accepted⟩
  · cases parsed

theorem parseDomain_read {raw sectionName option : String} {row : Register} {value : Value}
    (parsed : parseDomain raw sectionName option row = .ok value) : ReadFor row value := by
  unfold parseDomain at parsed
  split at parsed
  · next bool =>
      obtain ⟨on, -, same⟩ := bind_eq_ok.mp parsed
      obtain rfl := pure_eq_ok.mp same
      simp only [ReadFor, bool]
      cases on <;> simp
  · next enum =>
      dsimp only at parsed
      split at parsed
      · next known =>
          cases parsed
          simp only [ReadFor, enum]
          exact ⟨_, List.contains_iff_mem.mp known, rfl⟩
      · cases parsed
  · next number =>
      simp only [ReadFor, number]
      exact parseNumber_read parsed
  · cases parsed

/-- What `find?` returns satisfies the search, as three separate facts. -/
theorem optionRegister_eq_some {device : Device} {family : Family} {option : Setting} {channel : ℕ}
    {row : Register} (found : optionRegister (some device) family option channel = some row) :
    row ∈ device.registers ∧ row.template = .channel family option ∧ row.domain.isSome
      ∧ device.has row.channels channel := by
  unfold optionRegister at found
  rw [Option.bind_some] at found
  have holds := List.find?_some found
  simp only [Bool.and_eq_true, decide_eq_true_eq] at holds
  exact ⟨List.mem_of_find?_eq_some found, holds.1.1, holds.1.2, holds.2⟩

/-- A row that has the channel is the one the option resolves to. -/
theorem Tabled.optionRegister_eq {device : Device} (tabled : Tabled device) {family : Family}
    {option : Setting} {channel : ℕ} {row : Register} (member : row ∈ device.registers)
    (template : row.template = .channel family option) (settable : row.domain.isSome)
    (has : device.has row.channels channel) (notGain : row.template ≠ gainTemplate) :
    optionRegister (some device) family option channel = some row := by
  have found : (optionRegister (some device) family option channel).isSome := by
    unfold optionRegister
    rw [Option.bind_some, List.find?_isSome]
    exact ⟨row, member, by simp [template, settable, has]⟩
  obtain ⟨other, same⟩ := Option.isSome_iff_exists.mp found
  obtain ⟨member', template', -, -⟩ := optionRegister_eq_some same
  rw [same, tabled.row_unique member' member (template'.trans template.symm)
    (template'.trans template.symm ▸ notGain)]

/-- The rows of a nested section are the sub-family's, under the setting their name stands for. -/
theorem settableNested_row {device : Device} (tabled : Tabled device) {sub : String}
    {family : Family} {option : String} {row : Register}
    (member : (option, row) ∈ settableNested (some device) sub family) :
    row ∈ device.registers ∧ row.template = .channel family (nestedSetting sub option)
      ∧ row.domain.isSome ∧ row.channels = family.name
      ∧ isNestedFamily (some device) family sub := by
  unfold settableNested at member
  dsimp only at member
  split at member
  swap
  · simp at member
  next nested =>
  obtain ⟨own, known, chosen⟩ := List.mem_filterMap.mp member
  split at chosen
  · cases chosen
  next settable =>
  have domain : own.domain.isSome := Option.isSome_iff_ne_none.mpr settable
  split at chosen
  · next ownFamily name template =>
      split at chosen
      · next fits =>
          simp only [Bool.and_eq_true, decide_eq_true_eq] at fits
          obtain ⟨rfl, rfl⟩ := fits
          cases chosen
          exact ⟨known, by rw [template, nestedSetting, if_pos rfl], domain,
            tabled.switch_channels known template nested, nested⟩
      · cases chosen
  · next ownFamily name ownOption template =>
      split at chosen
      · next fits =>
          simp only [Bool.and_eq_true, decide_eq_true_eq] at fits
          obtain ⟨rfl, rfl⟩ := fits
          cases chosen
          have invented := tabled.nested_ne_enable known template settable
          exact ⟨known, by rw [template, nestedSetting, if_neg invented], domain,
            tabled.nested_channels known template, nested⟩
      · cases chosen
  · cases chosen

theorem mem_of_lookup {κ ν : Type} [BEq κ] [LawfulBEq κ] {entries : List (κ × ν)} {key : κ}
    {value : ν} (found : entries.lookup key = some value) : (key, value) ∈ entries := by
  induction entries with
  | nil => simp at found
  | cons entry rest ih =>
      obtain ⟨own, held⟩ := entry
      rw [List.lookup_cons] at found
      split at found
      · next same =>
          obtain rfl : key = own := by simpa using same
          obtain rfl := Option.some.inj found
          exact List.mem_cons_self
      · exact List.mem_cons_of_mem _ (ih found)

theorem parseNestedSection_parsed {device : Device} (tabled : Tabled device) {ini : IniSection}
    {settings : List ChannelSetting}
    (parsed : parseNestedSection (some device) ini = .ok settings) :
    ∀ setting ∈ settings, ParsedSetting device setting := by
  unfold parseNestedSection at parsed
  split at parsed
  swap
  · cases parsed
  split at parsed
  swap
  · cases parsed
  next family channel _ _ =>
  dsimp only at parsed
  split at parsed
  · split at parsed
    · cases parsed
    · cases parsed; simp
  split at parsed
  · cases parsed
  next own found =>
  split at parsed
  · cases parsed
  intro setting result
  obtain ⟨entry, -, read⟩ := mem_of_mapM parsed result
  unfold nestedOption at read
  split at read
  · cases read
  next row known =>
  obtain ⟨value, domain, same⟩ := bind_eq_ok.mp read
  obtain rfl := pure_eq_ok.mp same
  obtain ⟨member, template, settable, channels, isSub⟩ :=
    settableNested_row tabled (mem_of_lookup known)
  have has : device.has row.channels own := by
    unfold nestedChannel at found
    obtain ⟨first, head, located⟩ := Option.bind_eq_some_iff.mp found
    obtain ⟨-, -, -, firstChannels, -⟩ :=
      settableNested_row tabled (show (first.1, first.2) ∈ _ from List.mem_of_mem_head? head)
    rw [channels, ← firstChannels]
    exact List.contains_iff_mem.mpr (List.mem_of_find?_eq_some located)
  have notGain : row.template ≠ gainTemplate := by
    intro gain
    obtain ⟨rfl, switch⟩ : family = .input ∧ nestedSetting _ _ = .flat "gain" :=
      Template.channel.inj (template.symm.trans gain)
    unfold nestedSetting at switch
    split at switch
    · rw [Setting.flat.inj switch, tabled.gainAlone] at isSub
      cases isSub
    · cases switch
  exact ⟨row, tabled.optionRegister_eq member template settable has notGain,
    parseDomain_read domain⟩

/-- A channel setting's section is one of the three families'. -/
theorem channelOption_parsed {device : Device} {ini : IniSection} {family : Family} {channel : ℤ}
    {entry : String × String} {setting : ChannelSetting}
    (read : channelOption ini device family channel entry = .ok setting) :
    ParsedSetting device setting := by
  unfold channelOption at read
  split at read
  · cases read
  next number row found =>
  obtain ⟨own, -, resolved⟩ := Option.bind_eq_some_iff.mp found
  obtain ⟨register, known, pair⟩ := Option.map_eq_some_iff.mp resolved
  cases pair
  obtain ⟨value, domain, same⟩ := bind_eq_ok.mp read
  obtain rfl := pure_eq_ok.mp same
  exact ⟨row, known, parseDomain_read domain⟩

theorem parseChannelSection_parsed {device : Device} {strict : Bool} {family : Family}
    {ini : IniSection} {settings : List ChannelSetting}
    (parsed : parseChannelSection (some device) strict family ini = .ok settings) :
    ∀ setting ∈ settings, ParsedSetting device setting := by
  unfold parseChannelSection at parsed
  split at parsed
  · cases parsed
  dsimp only at parsed
  split at parsed
  · split at parsed
    · cases parsed
    · obtain ⟨-, -, same⟩ := bind_eq_ok.mp parsed
      obtain rfl := pure_eq_ok.mp same
      simp
  next model modelled =>
  obtain rfl : device = model := Option.some.inj (Option.eq_some_of_filter_eq_some modelled)
  split at parsed
  · cases parsed
  intro setting result
  obtain ⟨entry, -, read⟩ := mem_of_mapM parsed result
  exact channelOption_parsed read

/-- On a device without a model, no channel section holds a setting. -/
theorem parseChannelSection_unmodelled {strict : Bool} {family : Family} {ini : IniSection}
    {settings : List ChannelSetting}
    (parsed : parseChannelSection none strict family ini = .ok settings) : settings = [] := by
  unfold parseChannelSection at parsed
  split at parsed
  · cases parsed
  dsimp only [Option.filter_none] at parsed
  split at parsed
  · cases parsed
  · obtain ⟨-, -, same⟩ := bind_eq_ok.mp parsed
    exact (pure_eq_ok.mp same).symm

theorem parseNestedSection_unmodelled {ini : IniSection} {settings : List ChannelSetting}
    (parsed : parseNestedSection none ini = .ok settings) : settings = [] := by
  unfold parseNestedSection at parsed
  split at parsed
  · split at parsed
    · exact (Except.ok.inj parsed).symm
    · cases parsed
  · cases parsed

theorem parseGlobalSection_parsed {device : Option Device} {ini : IniSection}
    {settings : List GlobalSetting} (parsed : parseGlobalSection device ini = .ok settings) :
    ∃ model, device = some model ∧ ∀ setting ∈ settings, ParsedGlobal model setting := by
  unfold parseGlobalSection at parsed
  dsimp only at parsed
  split at parsed
  · cases parsed
  next settable =>
  split at parsed
  · cases parsed
  cases device with
  | none => simp [settableGlobals] at settable
  | some model =>
      refine ⟨model, rfl, fun setting result => ?_⟩
      obtain ⟨entry, -, read⟩ := mem_of_mapM parsed result
      unfold globalOption at read
      split at read
      · cases read
      next row known =>
      obtain ⟨value, domain, same⟩ := bind_eq_ok.mp read
      obtain rfl := pure_eq_ok.mp same
      exact ⟨row, known, parseDomain_read domain⟩

/-! ### Going over the sections -/

/-- The family and option of a global setting: its register. -/
def GlobalSetting.key (setting : GlobalSetting) : String × String :=
  (setting.family, setting.option)

/-- The settings of one section carry its name and its options. -/
theorem parseGlobalSection_keys {device : Option Device} {ini : IniSection}
    {settings : List GlobalSetting} (parsed : parseGlobalSection device ini = .ok settings) :
    settings.map GlobalSetting.key = ini.options.map fun entry => (ini.name, entry.1) := by
  unfold parseGlobalSection at parsed
  dsimp only at parsed
  split at parsed
  · cases parsed
  split at parsed
  · cases parsed
  refine map_mapM (fun entry setting read => ?_) parsed
  unfold globalOption at read
  split at read
  · cases read
  obtain ⟨value, -, same⟩ := bind_eq_ok.mp read
  obtain rfl := pure_eq_ok.mp same
  rfl

/-- Sections of distinct names hold distinct registers. -/
theorem globals_distinct {device : Option Device} {sections : List IniSection}
    {globals : List (List GlobalSetting)} (names : (sections.map (·.name)).Nodup)
    (parsed : sections.mapM (parseGlobalSection device) = .ok globals) :
    (globals.flatten.map GlobalSetting.key).Nodup := by
  induction sections generalizing globals with
  | nil =>
      obtain rfl : [] = globals := pure_eq_ok.mp parsed
      exact List.nodup_nil
  | cons ini rest ih =>
      rw [List.mapM_cons, bind_eq_ok] at parsed
      obtain ⟨settings, here, parsed⟩ := parsed
      obtain ⟨others, there, same⟩ := bind_eq_ok.mp parsed
      obtain rfl := pure_eq_ok.mp same
      rw [List.map_cons, List.nodup_cons] at names
      have keys := parseGlobalSection_keys here
      rw [List.flatten_cons, List.map_append, List.nodup_append]
      refine ⟨?_, ih names.2 there, ?_⟩
      · rw [keys, ← Function.comp_def (Prod.mk ini.name), ← List.map_map]
        exact ini.distinct.map (Prod.mk_right_injective ini.name)
      · intro key member other member' same
        have own : key.1 = ini.name := by
          rw [keys] at member
          obtain ⟨entry, -, rfl⟩ := List.mem_map.mp member
          rfl
        obtain ⟨setting, known, rfl⟩ := List.mem_map.mp member'
        obtain ⟨list, listed, inList⟩ := List.mem_flatten.mp known
        obtain ⟨section', known', parsed'⟩ := mem_of_mapM there listed
        have theirs : setting.key.1 = section'.name := by
          have inKeys : setting.key ∈ list.map GlobalSetting.key := List.mem_map_of_mem inList
          rw [parseGlobalSection_keys parsed'] at inKeys
          obtain ⟨entry, -, equal⟩ := List.mem_map.mp inKeys
          rw [← equal]
        exact names.1 (List.mem_map.mpr ⟨section', known', by rw [← theirs, ← same, own]⟩)

/-- A device whose table has rows. -/
def Registered (device : Option Device) : Prop :=
  ∃ known, device = some known ∧ known.registers ≠ []

/-- A section's parser leaves the routes and the collected sections alone, and adds a policy only
on a device with registers. -/
structure SameCollection (draft next : Draft) : Prop where
  routes : next.routes = draft.routes
  pendingGlobals : next.pendingGlobals = draft.pendingGlobals
  pending : next.pending = draft.pending
  policies : next.policies = draft.policies ∨ Registered draft.device

theorem parseDevice_same {ini : IniSection} {draft next : Draft}
    (parsed : parseDevice ini draft = .ok next) :
    SameCollection draft next ∧ next.policies = draft.policies := by
  unfold parseDevice at parsed
  obtain ⟨-, -, parsed⟩ := bind_eq_ok.mp parsed
  dsimp only at parsed
  split at parsed
  · obtain ⟨_, refused, -⟩ := bind_eq_ok.mp parsed
    exact absurd refused throw_ne_ok
  split at parsed
  · obtain ⟨_, refused, -⟩ := bind_eq_ok.mp parsed
    exact absurd refused throw_ne_ok
  split at parsed
  · obtain ⟨_, refused, -⟩ := bind_eq_ok.mp parsed
    exact absurd refused throw_ne_ok
  obtain rfl := pure_eq_ok.mp parsed
  exact ⟨⟨rfl, rfl, rfl, Or.inl rfl⟩, rfl⟩

theorem parseOsc_same {ini : IniSection} {draft next : Draft}
    (parsed : parseOsc ini draft = .ok next) :
    SameCollection draft next ∧ next.used = draft.used := by
  unfold parseOsc at parsed
  obtain ⟨-, -, parsed⟩ := bind_eq_ok.mp parsed
  obtain ⟨_, -, parsed⟩ := bind_eq_ok.mp parsed
  obtain ⟨_, -, parsed⟩ := bind_eq_ok.mp parsed
  obtain ⟨_, -, parsed⟩ := bind_eq_ok.mp parsed
  obtain ⟨_, -, parsed⟩ := bind_eq_ok.mp parsed
  obtain rfl := pure_eq_ok.mp parsed
  exact ⟨⟨rfl, rfl, rfl, Or.inl rfl⟩, rfl⟩

theorem parseDesk_same {profile : Bool} {ini : IniSection} {draft next : Draft}
    (parsed : parseDesk profile ini draft = .ok next) :
    SameCollection draft next ∧ next.used = draft.used := by
  unfold parseDesk at parsed
  obtain ⟨-, -, parsed⟩ := bind_eq_ok.mp parsed
  dsimp only at parsed
  split at parsed
  · split at parsed
    · obtain ⟨_, refused, -⟩ := bind_eq_ok.mp parsed
      exact absurd refused throw_ne_ok
    · obtain ⟨_, -, parsed⟩ := bind_eq_ok.mp parsed
      obtain ⟨_, -, parsed⟩ := bind_eq_ok.mp parsed
      obtain rfl := pure_eq_ok.mp parsed
      exact ⟨⟨rfl, rfl, rfl, Or.inl rfl⟩, rfl⟩
  · obtain ⟨_, -, parsed⟩ := bind_eq_ok.mp parsed
    obtain ⟨_, -, parsed⟩ := bind_eq_ok.mp parsed
    obtain rfl := pure_eq_ok.mp parsed
    exact ⟨⟨rfl, rfl, rfl, Or.inl rfl⟩, rfl⟩

/-- A `[pin]` entry names an option of a device with registers. -/
theorem parsePinEntry_registered {device : Option Device} {entry : String × String}
    {policy : (Family × String) × Policy} (parsed : parsePinEntry device entry = .ok policy) :
    Registered device := by
  by_contra none
  have noRow (family : Family) : pinnable device family = [] := by
    cases device with
    | none => rfl
    | some known =>
        have empty : known.registers = [] := by
          by_contra some
          exact none ⟨known, rfl, some⟩
        simp [pinnable, settableOptionRows, registerAt, empty]
  unfold parsePinEntry at parsed
  split at parsed
  · cases parsed
  · split at parsed
    · cases parsed
    · next family _ =>
      rw [noRow family] at parsed
      cases parsed
  · cases parsed

theorem parsePin_same {ini : IniSection} {draft next : Draft}
    (parsed : parsePin ini draft = .ok next) :
    SameCollection draft next ∧ next.used = draft.used := by
  unfold parsePin at parsed
  obtain ⟨policies, read, parsed⟩ := bind_eq_ok.mp parsed
  obtain rfl := pure_eq_ok.mp parsed
  refine ⟨⟨rfl, rfl, rfl, ?_⟩, rfl⟩
  cases policies with
  | nil => exact Or.inl (List.append_nil _)
  | cons policy rest =>
      obtain ⟨entry, -, own⟩ := mem_of_mapM read List.mem_cons_self
      exact Or.inr (parsePinEntry_registered own)

/-- What one section adds: at most one parsed route, and itself where it is collected. Only
`[device]` names the device, and it adds no policy. -/
structure SectionStep (draft next : Draft) (ini : IniSection) : Prop where
  routes : next.routes = draft.routes
    ∨ ∃ route, ParsedRoute route ∧ next.routes = draft.routes ++ [route]
  pendingGlobals : next.pendingGlobals = draft.pendingGlobals
    ∨ next.pendingGlobals = draft.pendingGlobals ++ [ini]
  pending : ∀ known ∈ draft.pending, known ∈ next.pending
  channel : (channelFamily ini).isSome → ini ∈ next.pending
  used : ini.name ≠ "device" → next.used = draft.used
  policies : next.policies = draft.policies ∨ ini.name ≠ "device" ∧ Registered draft.device

/-- The name of a channel section is no other section's. -/
theorem channelFamily_own {ini : IniSection} (channel : (channelFamily ini).isSome = true) :
    ini.name ≠ "device" ∧ ini.name ≠ "osc" ∧ ini.name ≠ "desk"
      ∧ ¬ "route:".toList.isPrefixOf ini.name.toList = true := by
  have starts : "input:".toList.isPrefixOf ini.name.toList = true
      ∨ "output:".toList.isPrefixOf ini.name.toList = true
      ∨ "playback:".toList.isPrefixOf ini.name.toList = true := by
    unfold channelFamily at channel
    dsimp only at channel
    split at channel
    · next input => exact Or.inl input
    split at channel
    · next output => exact Or.inr (Or.inl output)
    split at channel
    · next playback => exact Or.inr (Or.inr playback)
    · cases channel
  refine ⟨fun same => ?_, fun same => ?_, fun same => ?_, fun route => ?_⟩
  · rw [same] at starts
    revert starts
    decide
  · rw [same] at starts
    revert starts
    decide
  · rw [same] at starts
    revert starts
    decide
  · have apart (other : List Char) (first : ¬ "route:".toList <+: other)
        (second : ¬ other <+: "route:".toList) (own : other.isPrefixOf ini.name.toList = true) :
        False := by
      have both := List.prefix_or_prefix_of_prefix (List.isPrefixOf_iff_prefix.mp route)
        (List.isPrefixOf_iff_prefix.mp own)
      exact both.elim first second
    rcases starts with input | output | playback
    · exact apart _ (by decide) (by decide) input
    · exact apart _ (by decide) (by decide) output
    · exact apart _ (by decide) (by decide) playback

theorem dispatchSection_step {strict profile : Bool} {draft next : Draft} {ini : IniSection}
    (parsed : dispatchSection strict profile draft ini = .ok next) :
    SectionStep draft next ini := by
  have own (channel : (channelFamily ini).isSome = true) := channelFamily_own channel
  unfold dispatchSection at parsed
  split at parsed
  · next device =>
    obtain ⟨same, policies⟩ := parseDevice_same parsed
    exact ⟨Or.inl same.routes, Or.inl same.pendingGlobals, same.pending ▸ fun _ known => known,
      fun channel => absurd device (own channel).1, fun other => absurd device other, Or.inl policies⟩
  next notDevice =>
  have ofSame (facts : SameCollection draft next ∧ next.used = draft.used)
      (other : ¬ (channelFamily ini).isSome = true) : SectionStep draft next ini :=
    ⟨Or.inl facts.1.routes, Or.inl facts.1.pendingGlobals, facts.1.pending ▸ fun _ known => known,
      fun channel => absurd channel other, fun _ => facts.2,
      facts.1.policies.imp_right fun registered => ⟨notDevice, registered⟩⟩
  split at parsed
  · next osc => exact ofSame (parseOsc_same parsed) fun channel => (own channel).2.1 osc
  split at parsed
  · next desk => exact ofSame (parseDesk_same parsed) fun channel => (own channel).2.2.1 desk
  split at parsed
  · next isRoute =>
    obtain ⟨route, read, parsed⟩ := bind_eq_ok.mp parsed
    obtain rfl := pure_eq_ok.mp parsed
    exact ⟨Or.inr ⟨route, parseRoute_parsed read, rfl⟩, Or.inl rfl, fun _ known => known,
      fun channel => absurd isRoute (own channel).2.2.2, fun _ => rfl, Or.inl rfl⟩
  split at parsed
  · cases parsed
    exact ⟨Or.inl rfl, Or.inl rfl, fun _ known => List.mem_append_left _ known,
      fun _ => List.mem_append_right _ List.mem_cons_self, fun _ => rfl, Or.inl rfl⟩
  next other =>
  split at parsed
  · exact ofSame (parsePin_same parsed) other
  split at parsed
  · cases parsed
    exact ⟨Or.inl rfl, Or.inr rfl, fun _ known => known, fun channel => absurd channel other,
      fun _ => rfl, Or.inl rfl⟩
  split at parsed
  · cases parsed
    exact ⟨Or.inl rfl, Or.inl rfl, fun _ known => known, fun channel => absurd channel other,
      fun _ => rfl, Or.inl rfl⟩
  · obtain ⟨-, -, parsed⟩ := bind_eq_ok.mp parsed
    obtain rfl := pure_eq_ok.mp parsed
    exact ⟨Or.inl rfl, Or.inl rfl, fun _ known => known, fun channel => absurd channel other,
      fun _ => rfl, Or.inl rfl⟩

/-- Over the whole file the routes stay parsed routes. -/
theorem dispatch_routes {strict profile : Bool} {draft next : Draft} {file : IniFile}
    (parsed : dispatch strict profile draft file = .ok next)
    (initial : ∀ route ∈ draft.routes, ParsedRoute route) :
    ∀ route ∈ next.routes, ParsedRoute route := by
  refine foldlM_invariant (fun state : Draft => ∀ route ∈ state.routes, ParsedRoute route)
    (fun state ini after _ holds step => ?_) initial parsed
  rcases (dispatchSection_step step).routes with same | ⟨route, read, grown⟩
  · exact same ▸ holds
  · rw [grown]
    intro own member
    rcases List.mem_append.mp member with known | new
    · exact holds own known
    · exact List.mem_singleton.mp new ▸ read

/-- The global sections collected are sections of the file, each once. -/
theorem dispatch_globals {strict profile : Bool} {draft next : Draft} {file : IniFile}
    (parsed : dispatch strict profile draft file = .ok next)
    (initial : draft.pendingGlobals = []) :
    (next.pendingGlobals.map (·.name)).Nodup := by
  obtain ⟨taken, sublist, grown⟩ := foldlM_sublist (fun state : Draft => state.pendingGlobals)
    (fun state ini after step => (dispatchSection_step step).pendingGlobals) parsed
  rw [grown, initial, List.nil_append]
  have ordered : (orderedSections file).Perm file.sections := by
    have parts := List.filter_append_perm (fun ini : IniSection => decide (ini.name = "device"))
      file.sections
    simpa [orderedSections] using parts
  exact ((ordered.map _).nodup_iff.mpr file.distinct).sublist (sublist.map _)

/-- Every channel section of the file is collected. -/
theorem dispatch_pending {strict profile : Bool} {draft next : Draft} {file : IniFile}
    (parsed : dispatch strict profile draft file = .ok next) {ini : IniSection}
    (member : ini ∈ file.sections) (channel : (channelFamily ini).isSome = true) :
    ini ∈ next.pending := by
  have inOrder : ini ∈ orderedSections file := by
    unfold orderedSections
    by_cases device : ini.name = "device"
    · exact List.mem_append_left _ (List.mem_filter.mpr ⟨member, by simpa using device⟩)
    · exact List.mem_append_right _ (List.mem_filter.mpr ⟨member, by simpa using device⟩)
  obtain ⟨before, after, split⟩ := List.append_of_mem inOrder
  unfold dispatch at parsed
  rw [split, List.foldlM_append, bind_eq_ok] at parsed
  obtain ⟨middle, -, rest⟩ := parsed
  rw [List.foldlM_cons, bind_eq_ok] at rest
  obtain ⟨first, here, there⟩ := rest
  exact foldlM_invariant (fun state : Draft => ini ∈ state.pending)
    (fun state _ result _ holds step => (dispatchSection_step step).pending ini holds)
    ((dispatchSection_step here).channel channel) there

/-- A policy is for an option of the device the desk is for, since `[device]` is read first. -/
theorem dispatch_policies {strict profile : Bool} {draft next : Draft} {file : IniFile}
    (parsed : dispatch strict profile draft file = .ok next) (initial : draft.policies = []) :
    next.policies = [] ∨ Registered next.device := by
  unfold dispatch orderedSections at parsed
  rw [List.foldlM_append] at parsed
  obtain ⟨named, deviceRead, othersRead⟩ := bind_eq_ok.mp parsed
  have start : named.policies = [] := by
    refine foldlM_invariant (fun state : Draft => state.policies = [])
      (fun state ini after member holds step => ?_) initial deviceRead
    have device : ini.name = "device" := by simpa using (List.mem_filter.mp member).2
    rcases (dispatchSection_step step).policies with same | ⟨other, -⟩
    · exact same.trans holds
    · exact absurd device other
  refine foldlM_invariant (fun state : Draft => state.policies = [] ∨ Registered state.device)
    (fun state ini after member holds step => ?_) (Or.inl start) othersRead
  have other : ini.name ≠ "device" := by simpa using (List.mem_filter.mp member).2
  have added := dispatchSection_step step
  have sameDevice : after.device = state.device := congrArg deviceForName (added.used other)
  rw [sameDevice]
  rcases added.policies with same | ⟨-, registered⟩
  · rcases holds with none | registered
    · exact Or.inl (same.trans none)
    · exact Or.inr registered
  · exact Or.inr registered

/-! ### The whole desk -/

/-- A mirror the parser has read for a device. -/
def ParsedMirror (device : Device) (mirror : Mirror) : Prop :=
  ∃ raw sectionName channel, parseMirror raw sectionName channel device = .ok mirror

/-- What the loader has checked of an accepted configuration: `declared` are the file's routes,
`added` the base's, and `mirrors` the mirror declarations. -/
structure Loaded (config : Config) (declared added : List Route) (mirrors : List Mirror) :
    Prop where
  parsed : ∀ route ∈ declared, ParsedRoute route
  unmodelled : deviceForName config.deviceName = none → added = []
  based : ∀ device, deviceForName config.deviceName = some device →
    baseRoutes config.base declared config.channels mirrors device = .ok added
  mirrored : ∀ mirror ∈ mirrors,
    ∃ device, deviceForName config.deviceName = some device ∧ ParsedMirror device mirror
  expanded : expandMirrors (declared ++ added) mirrors = .ok config.routes
  settings : ∀ setting ∈ config.channels,
    ∃ device, deviceForName config.deviceName = some device ∧ ParsedSetting device setting
  globals : ∀ setting ∈ config.globals,
    ∃ device, deviceForName config.deviceName = some device ∧ ParsedGlobal device setting
  globalsDistinct : (config.globals.map GlobalSetting.key).Nodup
  channelsExist : checkDeviceChannels (deviceForName config.deviceName) config.routes = .ok ()
  linksAgree : disagreement [] (allRequirements config.routes) = none
  pans : validateRoutePan config.routes = .ok ()
  autogain : validateAutogain config = .ok ()
  playback : validatePlaybackMute config = .ok ()
  dspLimits : validateDspLimits config = .ok ()
  /-- A word of `[pin]` is on an option of the device's table. -/
  policies : config.policies = [] ∨ Registered (deviceForName config.deviceName)

theorem mapError_eq_ok {ε ε' α : Type} {f : ε → ε'} {result : Except ε α} {value : α} :
    result.mapError f = .ok value ↔ result = .ok value := by
  cases result <;> simp [Except.mapError]

/-- The parser of the collected sections keeps the rest of the draft. -/
theorem parseCollected_parsed {strict : Bool} {draft next : Draft}
    (parsed : parseCollected strict draft = .ok next)
    (names : (draft.pendingGlobals.map (·.name)).Nodup) :
    next.routes = draft.routes ∧ next.used = draft.used ∧ next.policies = draft.policies
      ∧ (∀ setting ∈ next.channels, ∃ device, draft.device = some device
        ∧ ParsedSetting device setting)
      ∧ (∀ setting ∈ next.globals, ∃ device, draft.device = some device
        ∧ ParsedGlobal device setting)
      ∧ (next.globals.map GlobalSetting.key).Nodup
      ∧ ∀ mirror ∈ next.mirrors, ∃ device, draft.device = some device
        ∧ ParsedMirror device mirror := by
  unfold parseCollected at parsed
  obtain ⟨globals, globalsRead, parsed⟩ := bind_eq_ok.mp parsed
  obtain ⟨nested, nestedRead, parsed⟩ := bind_eq_ok.mp parsed
  obtain ⟨sections, sectionsRead, parsed⟩ := bind_eq_ok.mp parsed
  obtain rfl := pure_eq_ok.mp parsed
  refine ⟨rfl, rfl, rfl, fun setting member => ?_, fun setting member => ?_,
    globals_distinct names globalsRead, fun mirror member => ?_⟩
  · rcases List.mem_append.mp member with inNested | inSections
    · obtain ⟨settings, listed, held⟩ := List.mem_flatten.mp inNested
      obtain ⟨ini, -, read⟩ := mem_of_mapM nestedRead listed
      cases modelled : draft.device with
      | none =>
          rw [modelled] at read
          rw [parseNestedSection_unmodelled read] at held
          cases held
      | some device =>
          rw [modelled] at read
          exact ⟨device, rfl, parseNestedSection_parsed (deviceForName_tabled modelled) read
            setting held⟩
    · obtain ⟨settings, listed, held⟩ := List.mem_flatten.mp inSections
      obtain ⟨pair, known, rfl⟩ := List.mem_map.mp listed
      obtain ⟨ini, -, read⟩ := mem_of_mapM sectionsRead known
      unfold collectSection at read
      split at read
      · cases read; cases held
      obtain ⟨own, sectionRead, rest⟩ := bind_eq_ok.mp read
      obtain ⟨mirror, -, same⟩ := bind_eq_ok.mp rest
      obtain rfl := pure_eq_ok.mp same
      cases modelled : draft.device with
      | none =>
          rw [modelled] at sectionRead
          rw [parseChannelSection_unmodelled sectionRead] at held
          cases held
      | some device =>
          rw [modelled] at sectionRead
          exact ⟨device, rfl, parseChannelSection_parsed sectionRead setting held⟩
  · obtain ⟨settings, listed, held⟩ := List.mem_flatten.mp member
    obtain ⟨ini, -, read⟩ := mem_of_mapM globalsRead listed
    obtain ⟨device, modelled, all⟩ := parseGlobalSection_parsed read
    exact ⟨device, modelled, all setting held⟩
  · obtain ⟨pair, known, own⟩ := List.mem_filterMap.mp member
    obtain ⟨ini, -, read⟩ := mem_of_mapM sectionsRead known
    unfold collectSection at read
    split at read
    · cases read; cases own
    obtain ⟨settings, -, rest⟩ := bind_eq_ok.mp read
    obtain ⟨found, mirrorRead, same⟩ := bind_eq_ok.mp rest
    obtain rfl := pure_eq_ok.mp same
    obtain rfl : found = some mirror := own
    unfold sectionMirror at mirrorRead
    split at mirrorRead
    · next model raw channel _ modelled _ _ =>
        obtain ⟨parsedMirror, readMirror, equal⟩ := bind_eq_ok.mp mirrorRead
        obtain rfl := Option.some.inj (pure_eq_ok.mp equal)
        exact ⟨model, modelled, raw, ini.name, channel, readMirror⟩
    · cases mirrorRead
    · cases mirrorRead

/-- The mirror of every collected section is collected. -/
theorem parseCollected_mirror {strict : Bool} {draft next : Draft}
    (parsed : parseCollected strict draft = .ok next) {ini : IniSection}
    (member : ini ∈ draft.pending) {mirror : Mirror}
    (declares : sectionMirror draft.device ini = .ok (some mirror)) : mirror ∈ next.mirrors := by
  unfold parseCollected at parsed
  obtain ⟨globals, -, parsed⟩ := bind_eq_ok.mp parsed
  obtain ⟨nested, -, parsed⟩ := bind_eq_ok.mp parsed
  obtain ⟨sections, sectionsRead, parsed⟩ := bind_eq_ok.mp parsed
  obtain rfl := pure_eq_ok.mp parsed
  obtain ⟨result, inSections, read⟩ := exists_right (mapM_eq_ok.mp sectionsRead) member
  have isOutput : channelFamily ini = some .output := by
    unfold sectionMirror at declares
    split at declares
    · assumption
    · cases declares
    · cases declares
  unfold collectSection at read
  rw [isOutput] at read
  obtain ⟨settings, -, rest⟩ := bind_eq_ok.mp read
  obtain ⟨found, mirrorRead, same⟩ := bind_eq_ok.mp rest
  have equal : result = (settings, found) := (pure_eq_ok.mp same).symm
  have some : found = some mirror := Except.ok.inj (mirrorRead.symm.trans declares)
  exact List.mem_filterMap.mpr ⟨result, inSections, by rw [equal]; exact some⟩

theorem checkLinkAgreement_eq_ok {routes : List Route} :
    checkLinkAgreement routes = .ok () ↔ disagreement [] (allRequirements routes) = none := by
  unfold checkLinkAgreement
  split
  · next same => simp [same]
  · next requirement same => simp [same]

/-- A desk without a section: the built-in defaults. -/
theorem loaded_defaults (draft : Draft)
    (routes : draft.routes = []) (channels : draft.channels = []) (globals : draft.globals = [])
    (policies : draft.policies = []) : Loaded (draft.frozen .keep) [] [] [] where
  parsed := by simp
  unmodelled _ := rfl
  based _ _ := rfl
  mirrored := by simp
  expanded := by
    show _ = Except.ok draft.routes
    rw [routes]
    rfl
  settings := by
    show ∀ setting ∈ draft.channels, _
    simp [channels]
  globals := by
    show ∀ setting ∈ draft.globals, _
    simp [globals]
  globalsDistinct := by
    show (draft.globals.map _).Nodup
    simp [globals]
  channelsExist := by
    show checkDeviceChannels _ draft.routes = _
    rw [routes]
    unfold checkDeviceChannels
    split <;> rfl
  linksAgree := by
    show disagreement [] (allRequirements draft.routes) = none
    rw [routes]
    rfl
  pans := by
    show validateRoutePan draft.routes = _
    rw [routes]
    rfl
  autogain := by
    have noSettings : (draft.frozen .keep).channels = [] := channels
    unfold validateAutogain
    rw [noSettings]
    split
    · rfl
    · split <;> rfl
  playback := by
    have noSettings : (draft.frozen .keep).channels = [] := channels
    unfold validatePlaybackMute validatedMutes
    rw [noSettings]
    rfl
  dspLimits := by
    have noSettings : (draft.frozen .keep).channels = [] := channels
    have noRoutes : (draft.frozen .keep).routes = [] := routes
    unfold validateDspLimits declaredOn declaredOutputLinks dspProblem
    rw [noSettings, noRoutes]
    split
    · rfl
    · next limits outputs _ => simp [allRequirements, orNumeric]; rfl
  policies := Or.inl policies

/-- The base's routes are added once the sections are read, and the mirrors expanded after them. -/
theorem deskWide_parsed {draft whole : Draft} {base : Base}
    (parsed : deskWide draft = .ok (whole, base)) :
    ∃ added, whole = { draft with routes := whole.routes }
      ∧ (draft.device = none → added = [])
      ∧ (∀ device, draft.device = some device →
        baseRoutes base draft.routes draft.channels draft.mirrors device = .ok added)
      ∧ expandMirrors (draft.routes ++ added) draft.mirrors = .ok whole.routes := by
  unfold deskWide at parsed
  obtain ⟨own, -, parsed⟩ := bind_eq_ok.mp parsed
  obtain ⟨added, addedRead, parsed⟩ := bind_eq_ok.mp parsed
  obtain ⟨routes, expanded, same⟩ := bind_eq_ok.mp parsed
  obtain ⟨rfl, rfl⟩ := Prod.mk.inj (pure_eq_ok.mp same)
  unfold addedRoutes at addedRead
  refine ⟨added, rfl, fun unmodelled => ?_, fun device modelled => ?_, expanded⟩
  · rw [unmodelled] at addedRead
    exact (pure_eq_ok.mp addedRead).symm
  · rw [modelled] at addedRead
    exact addedRead

/-- What the loader has checked of a file it accepts, whose mirrors are those of its sections. -/
theorem loadConfig_loaded {file : IniFile} {onto : Config} {overrides : Overrides}
    {strict profile : Bool} {config : Config}
    (loaded : loadConfig (some file) onto overrides strict profile = .ok config) :
    ∃ declared added mirrors, Loaded config declared added mirrors
      ∧ ∀ ini ∈ file.sections, ∀ mirror,
        sectionMirror (deviceForName config.deviceName) ini = .ok (some mirror)
          → mirror ∈ mirrors := by
  unfold loadConfig at loaded
  dsimp only at loaded
  obtain ⟨read, dispatched, loaded⟩ := bind_eq_ok.mp loaded
  obtain ⟨collected, collectedRead, loaded⟩ := bind_eq_ok.mp loaded
  obtain ⟨⟨whole, base⟩, wideRead, loaded⟩ := bind_eq_ok.mp loaded
  obtain ⟨_, channelsExist, loaded⟩ := bind_eq_ok.mp loaded
  obtain ⟨_, linksAgree, loaded⟩ := bind_eq_ok.mp loaded
  obtain ⟨_, pans, loaded⟩ := bind_eq_ok.mp loaded
  obtain ⟨_, validated, loaded⟩ := bind_eq_ok.mp loaded
  obtain rfl := pure_eq_ok.mp loaded
  unfold validate at validated
  obtain ⟨_, autogain, validated⟩ := bind_eq_ok.mp validated
  obtain ⟨_, playback, dspLimits⟩ := bind_eq_ok.mp validated
  have dispatched := mapError_eq_ok.mp dispatched
  have collectedRead := mapError_eq_ok.mp collectedRead
  have wideRead := mapError_eq_ok.mp wideRead
  obtain ⟨routes, used, policies, settings, globals, distinct, mirrors⟩ :=
    parseCollected_parsed collectedRead (dispatch_globals dispatched rfl)
  obtain ⟨added, whole_eq, unmodelled, based, expanded⟩ := deskWide_parsed wideRead
  have sameDevice : deviceForName (whole.frozen base).deviceName = read.device := by
    rw [whole_eq]
    exact congrArg deviceForName used
  have collectedDevice : collected.device = read.device := congrArg deviceForName used
  have wholeDevice : whole.device = read.device := by
    rw [whole_eq]
    exact collectedDevice
  have channels : (whole.frozen base).channels = collected.channels := by rw [whole_eq]; rfl
  have globalsSame : (whole.frozen base).globals = collected.globals := by rw [whole_eq]; rfl
  refine ⟨read.routes, added, collected.mirrors, ?_, fun ini member mirror declares => ?_⟩
  · exact
      { parsed := dispatch_routes dispatched (by simp)
        unmodelled := fun none => unmodelled (collectedDevice.trans (sameDevice.symm.trans none))
        based := fun device modelled => by
          rw [channels, ← routes]
          exact based device (collectedDevice.trans (sameDevice.symm.trans modelled))
        mirrored := fun mirror member => by
          rw [sameDevice]
          exact mirrors mirror member
        expanded := routes ▸ expanded
        settings := fun setting member => by
          rw [sameDevice]
          exact settings setting (channels ▸ member)
        globals := fun setting member => by
          rw [sameDevice]
          exact globals setting (globalsSame ▸ member)
        globalsDistinct := globalsSame ▸ distinct
        channelsExist := by
          rw [sameDevice, ← wholeDevice]
          exact mapError_eq_ok.mp channelsExist
        linksAgree := checkLinkAgreement_eq_ok.mp (mapError_eq_ok.mp linksAgree)
        pans := mapError_eq_ok.mp (mapError_eq_ok.mp pans)
        autogain
        playback := mapError_eq_ok.mp playback
        dspLimits
        policies := by
          have own : (whole.frozen base).policies = read.policies := by
            rw [whole_eq]
            exact policies
          rw [sameDevice, own]
          exact dispatch_policies dispatched rfl }
  · rw [sameDevice] at declares
    have isChannel : (channelFamily ini).isSome = true := by
      unfold sectionMirror at declares
      split at declares
      · next isOutput _ _ _ => rw [isOutput]; rfl
      · cases declares
      · cases declares
    exact parseCollected_mirror collectedRead (dispatch_pending dispatched member isChannel) declares

/-- What the loader has checked of every configuration it accepts. -/
theorem Accepted.loaded {config : Config} (accepted : Accepted config) :
    ∃ declared added mirrors, Loaded config declared added mirrors := by
  obtain ⟨file, onto, overrides, strict, profile, loaded⟩ := accepted
  cases file with
  | none =>
      obtain rfl := pure_eq_ok.mp loaded
      exact ⟨[], [], [], loaded_defaults _ rfl rfl rfl rfl⟩
  | some file =>
      obtain ⟨declared, added, mirrors, facts, -⟩ := loadConfig_loaded loaded
      exact ⟨declared, added, mirrors, facts⟩

/-- A section of one option. -/
def IniSection.single (name option value : String) : IniSection :=
  ⟨name, [(option, value)], List.nodup_singleton _⟩

/-- A route section of a playback source and its outputs. -/
def IniSection.route (name playback output : String) : IniSection :=
  ⟨name, [("playback", playback), ("output", output)], by simp⟩

/-- The configuration a file is read as, where it is accepted. -/
def configOf (file : IniFile) : Config :=
  (loadConfig (some file)).toOption.getD {}

/-- A file that is read is accepted. -/
theorem accepted_configOf {file : IniFile} (read : (loadConfig (some file)).toOption.isSome) :
    Accepted (configOf file) := by
  refine ⟨some file, {}, {}, false, false, ?_⟩
  unfold configOf
  cases loaded : loadConfig (some file) with
  | error problem =>
      rw [loaded] at read
      cases read
  | ok config => rfl

end OscmixDesk
