/-
**The union of the generators.**

`desired` on an accepted configuration: it returns (`Loaded.desired_eq`), its entries come from four
generators (routes, silent cells, channel settings, global settings), each of which writes a register
once, and the only overlaps the loader leaves open are between channel settings and with the volumes
of routes (`desired_distinct`).
-/

import OscmixDesk.Proof.RouteEntries

namespace OscmixDesk

open Checks

/-! ### The order of the phases -/

theorem Phase.order_nodup : Phase.order.Nodup := by decide

theorem Phase.mem_order (phase : Phase) : phase ∈ Phase.order := by
  cases phase <;> decide

theorem bucketSort_entries_perm (entries : List Entry) :
    (bucketSort Phase.order Entry.phase entries).Perm entries :=
  perm_bucketSort _ _ _ Phase.order_nodup fun entry _ => Phase.mem_order entry.phase

/-! ### Settings without a channel -/

theorem globalPath_injective {first second : GlobalSetting} (same : first.path = second.path) :
    first.key = second.key := by
  unfold GlobalSetting.path at same
  unfold GlobalSetting.key
  split at same <;> split at same
  · next one two => rw [(Path.global.inj same).1, one, two]
  · cases (Path.global.inj same).2
  · cases (Path.global.inj same).2
  · rw [(Path.global.inj same).1, Option.some.inj (Path.global.inj same).2]

/-- The path of a global setting has no channel. -/
theorem globalPath_shape (setting : GlobalSetting) :
    ∃ family option, setting.path = .global family option := by
  unfold GlobalSetting.path
  split <;> exact ⟨_, _, rfl⟩

/-! ### Settings as entries -/

theorem orNumeric_ok {α : Type} {result : Except NumericProblem α} {value : α}
    (succeeds : result = .ok value) : orNumeric result = .ok value := by
  rw [succeeds]
  rfl

/-- The entry of a setting: the register it names, written once, outside the routes' phases. -/
structure SettingEntry (path : Path) (entry : Entry) : Prop where
  path : entry.path = path
  base : entry.base = false
  compared : entry.compared = true
  notLink : entry.phase ≠ .link
  notMix : entry.phase ≠ .mix

theorem settingPhase_routes (path : Path) (number : ℤ) :
    settingPhase path number ≠ .link ∧ settingPhase path number ≠ .mix := by
  unfold settingPhase
  split
  · split <;> simp
  · split
    · split <;> simp
    · simp

theorem integer_small {number : ℤ} (small : number = 0 ∨ number = 1) :
    integer (.int number) = .ok number := by
  rcases small with rfl | rfl <;> decide +kernel

theorem integer_of_raw {value : ℚ} {row : Register} (unscaled : row.scale = none)
    (tagged : row.startsWith 'i') (accepted : numberValue (.real value) row = .ok value) :
    ∃ number, integer (.real value) = .ok number := by
  unfold numberValue at accepted
  obtain ⟨own, read, accepted⟩ := bind_eq_ok.mp accepted
  obtain rfl : value = own := Except.ok.inj read
  rw [if_pos (by simp [tagged])] at accepted
  obtain ⟨raw, rawRead, -⟩ := bind_eq_ok.mp accepted
  unfold rawValue at rawRead
  obtain ⟨number, unbounded, -⟩ := bind_eq_ok.mp rawRead
  unfold unboundedRaw at unbounded
  rw [unscaled] at unbounded
  exact ⟨number, unbounded⟩

/-- What is written for a value the parser read: a float for a float row, an integer otherwise. -/
inductive Encoded (row : Register) (value : Value) (path : Path) (entry : Entry) : Prop
  | named (name : String) (number : ℤ) (held : value = .str name)
      (written : enumValue row value = .ok number) (tags : entry.tags = "i")
      (args : entry.args = [.int number]) (phase : entry.phase = .channel)
  | quantity (number : ℚ) (held : value = .real number) (row : row.startsWith 'f')
      (tags : entry.tags = "f") (args : entry.args = [.real number])
      (phase : entry.phase = .channel)
  | whole (number : ℤ) (held : integer value = .ok number) (row : ¬ row.startsWith 'f')
      (tags : entry.tags = "i") (args : entry.args = [.int number])
      (phase : entry.phase = settingPhase path number)

/-- A value the parser read for a row is encoded. -/
theorem encode_ok (path : Path) {row : Register} {value : Value} (tagged : row.tagged)
    (read : ReadFor row value) :
    ∃ entry, encode path row value = .ok entry ∧ SettingEntry path entry
      ∧ Encoded row value path entry := by
  unfold ReadFor at read
  split at read
  · next bool =>
      obtain ⟨number, small, rfl⟩ : ∃ number : ℤ, (number = 0 ∨ number = 1) ∧ value = .int number := by
        rcases read with rfl | rfl
        · exact ⟨0, Or.inl rfl, rfl⟩
        · exact ⟨1, Or.inr rfl, rfl⟩
      have whole := integer_small small
      have domain : checkDomain row (.int number) = .ok () := by
        unfold checkDomain reportValue
        rw [bool]
        simp only [whole, bind, Except.bind, small, if_true]
        rfl
      have notFloat : row.startsWith 'f' = false := by
        unfold Register.tagged at tagged
        rw [bool] at tagged
        simpa using tagged
      refine ⟨{ path, tags := "i", args := [.int number], phase := settingPhase path number }, ?_,
        ⟨rfl, rfl, rfl, (settingPhase_routes path number).1, (settingPhase_routes path number).2⟩,
        .whole number whole (by simp [notFloat]) rfl rfl rfl⟩
      unfold encode
      rw [if_neg (by simp [bool]), orNumeric_ok domain, notFloat, orNumeric_ok whole]
      rfl
  · next enum =>
      obtain ⟨name, known, rfl⟩ := read
      have some : (row.choices.idxOf? name).isSome := List.isSome_idxOf?.mpr known
      obtain ⟨position, found⟩ := Option.isSome_iff_exists.mp some
      have written : enumValue row (.str name) = .ok (row.values.getD position position) := by
        simp only [enumValue, found]
      refine ⟨{ path, tags := "i", args := [.int (row.values.getD position position)],
                phase := .channel }, ?_, ⟨rfl, rfl, rfl, by simp, by simp⟩,
        .named name _ rfl written rfl rfl rfl⟩
      unfold encode
      rw [if_pos enum, written]
      rfl
  · next number =>
      obtain ⟨quantity, rfl, accepted⟩ := read
      have domain : checkDomain row (.real quantity) = .ok () := by
        unfold checkDomain
        rw [number]
        simp only [accepted]
        rfl
      unfold Register.tagged at tagged
      rw [number] at tagged
      by_cases float : row.startsWith 'f' = true
      · refine ⟨{ path, tags := "f", args := [.real quantity], phase := .channel }, ?_,
          ⟨rfl, rfl, rfl, by simp, by simp⟩, .quantity quantity rfl float rfl rfl rfl⟩
        unfold encode
        rw [if_neg (by simp [number]), orNumeric_ok domain, if_pos float]
        rfl
      · have integral : row.startsWith 'i' = true ∧ row.scale = none := by
          simpa [float] using tagged
        obtain ⟨whole, read⟩ := integer_of_raw integral.2 integral.1 accepted
        refine ⟨{ path, tags := "i", args := [.int whole], phase := settingPhase path whole }, ?_,
          ⟨rfl, rfl, rfl, (settingPhase_routes path whole).1, (settingPhase_routes path whole).2⟩,
          .whole whole read float rfl rfl rfl⟩
        unfold encode
        rw [if_neg (by simp [number]), orNumeric_ok domain, if_neg float, orNumeric_ok read]
        rfl
  · cases read

/-- What a setting of the file writes. -/
def WrittenAs (device : Device) (setting : ChannelSetting) (entry : Entry) : Prop :=
  SettingEntry setting.path entry ∧ ∃ row,
    optionRegister (some device) setting.family setting.option setting.channel = some row
      ∧ ReadFor row setting.value ∧ Encoded row setting.value setting.path entry

/-- What a setting without a channel writes. -/
def GloballyWrittenAs (device : Device) (setting : GlobalSetting) (entry : Entry) : Prop :=
  SettingEntry setting.path entry ∧ ∃ row,
    (settableGlobals (some device) setting.family).lookup setting.option = some row
      ∧ ReadFor row setting.value ∧ Encoded row setting.value setting.path entry

theorem forall₂_filterMap_id {α β : Type} {related : α → β → Prop} {items : List α}
    {results : List (Option β)}
    (pairs : List.Forall₂ (fun item result => ∃ value, result = some value ∧ related item value)
      items results) : List.Forall₂ related items (results.filterMap id) := by
  induction pairs with
  | nil => exact List.Forall₂.nil
  | cons here there ih =>
      obtain ⟨value, rfl, holds⟩ := here
      exact List.Forall₂.cons holds ih

theorem channelEntry_ok {device : Device} (tabled : Tabled device) {setting : ChannelSetting}
    (parsed : ParsedSetting device setting) :
    ∃ result, channelEntry device setting = .ok result
      ∧ ∃ entry, result = some entry ∧ WrittenAs device setting entry := by
  obtain ⟨row, resolved, read⟩ := parsed
  have tagged := tabled.tagged row (optionRegister_eq_some resolved).1
  obtain ⟨entry, encoded, shape, content⟩ := encode_ok setting.path tagged read
  refine ⟨some entry, ?_, entry, rfl, shape, row, resolved, read, content⟩
  unfold channelEntry
  rw [resolved]
  simp only [encoded]
  rfl

theorem settableGlobals_row {device : Device} {family option : String} {row : Register}
    (found : (settableGlobals (some device) family).lookup option = some row) :
    row ∈ device.registers := by
  have member := mem_of_lookup found
  unfold settableGlobals at member
  obtain ⟨own, known, chosen⟩ := List.mem_filterMap.mp member
  split at chosen
  · cases chosen
  split at chosen
  · split at chosen
    · cases chosen; exact known
    · cases chosen
  · split at chosen
    · cases chosen; exact known
    · cases chosen
  · cases chosen

theorem globalEntry_ok {device : Device} (tabled : Tabled device) {setting : GlobalSetting}
    (parsed : ParsedGlobal device setting) :
    ∃ result, globalEntry device setting = .ok result
      ∧ ∃ entry, result = some entry ∧ GloballyWrittenAs device setting entry := by
  obtain ⟨row, resolved, read⟩ := parsed
  have tagged := tabled.tagged row (settableGlobals_row resolved)
  obtain ⟨entry, encoded, shape, content⟩ := encode_ok setting.path tagged read
  refine ⟨some entry, ?_, entry, rfl, shape, row, resolved, read, content⟩
  unfold globalEntry
  rw [resolved]
  simp only [encoded]
  rfl

namespace Loaded

variable {config : Config} {declared added : List Route} {mirrors : List Mirror}

/-- Every channel setting of an accepted configuration is written as one entry. -/
theorem channelEntries_ok (loaded : Loaded config declared added mirrors) :
    ∃ entries, channelEntries config = .ok entries ∧ List.Forall₂ (fun setting entry =>
      ∃ device, deviceForName config.deviceName = some device ∧ WrittenAs device setting entry)
      config.channels entries := by
  unfold channelEntries
  cases modelled : deviceForName config.deviceName with
  | none =>
      have none : config.channels = [] := by
        rw [List.eq_nil_iff_forall_not_mem]
        intro setting member
        obtain ⟨device, named, -⟩ := loaded.settings setting member
        rw [modelled] at named
        cases named
      exact ⟨[], rfl, none ▸ List.Forall₂.nil⟩
  | some device =>
      obtain ⟨results, done, pairs⟩ := mapM_total fun setting member => by
        obtain ⟨own, named, parsed⟩ := loaded.settings setting member
        obtain rfl : device = own := Option.some.inj (modelled.symm.trans named)
        exact channelEntry_ok (deviceForName_tabled modelled) parsed
      exact ⟨results.filterMap id, by simp only [done]; rfl,
        (forall₂_filterMap_id pairs).imp fun setting entry written => ⟨device, rfl, written⟩⟩

theorem globalEntries_ok (loaded : Loaded config declared added mirrors) :
    ∃ entries, globalEntries config = .ok entries ∧ List.Forall₂ (fun setting entry =>
      ∃ device, deviceForName config.deviceName = some device
        ∧ GloballyWrittenAs device setting entry) config.globals entries := by
  unfold globalEntries
  cases modelled : deviceForName config.deviceName with
  | none =>
      have none : config.globals = [] := by
        rw [List.eq_nil_iff_forall_not_mem]
        intro setting member
        obtain ⟨device, named, -⟩ := loaded.globals setting member
        rw [modelled] at named
        cases named
      exact ⟨[], rfl, none ▸ List.Forall₂.nil⟩
  | some device =>
      obtain ⟨results, done, pairs⟩ := mapM_total fun setting member => by
        obtain ⟨own, named, parsed⟩ := loaded.globals setting member
        obtain rfl : device = own := Option.some.inj (modelled.symm.trans named)
        exact globalEntry_ok (deviceForName_tabled modelled) parsed
      exact ⟨results.filterMap id, by simp only [done]; rfl,
        (forall₂_filterMap_id pairs).imp fun setting entry written => ⟨device, rfl, written⟩⟩

/-- The channels of a route exist on its device. -/
theorem route_channels (loaded : Loaded config declared added mirrors) {device : Device}
    (modelled : deviceForName config.deviceName = some device) {route : Route}
    (member : route ∈ config.routes) :
    (∀ channel ∈ route.source.toList, channel ∈ device.channelsFor route.kind.family.name)
      ∧ ∀ channel ∈ route.output.toList, channel ∈ device.channelsFor "output" := by
  have exist := loaded.channelsExist
  unfold checkDeviceChannels at exist
  rw [modelled] at exist
  have own := forM_eq_ok.mp exist route member
  have present {family : Family} {channels : Channels}
      (none : missingChannel device family channels = none) :
      ∀ channel ∈ channels.toList, channel ∈ device.channelsFor family.name := by
    unfold missingChannel at none
    dsimp only at none
    split at none
    · next empty =>
        obtain ⟨half, positive, counted⟩ := (deviceForName_tabled modelled).counted
        rw [counted family, seq] at empty
        simp at empty
        omega
    · intro channel known
      have := List.find?_eq_none.mp none channel known
      simpa using this
  unfold checkRouteChannels at own
  split at own
  · cases own
  next source =>
  split at own
  · cases own
  next output =>
  exact ⟨present source, present output⟩

theorem checkDesired_ok (loaded : Loaded config declared added mirrors) :
    checkDesired config = .ok () := by
  unfold checkDesired orConfig
  rw [loaded.pans, loaded.autogain, loaded.playback]
  cases modelled : deviceForName config.deviceName with
  | none => rfl
  | some device =>
      refine forM_eq_ok.mpr fun route member => ?_
      obtain ⟨source, output⟩ := loaded.route_channels modelled member
      unfold checkBalanced
      split
      · rfl
      · rw [if_neg, if_neg]
        · simpa using output
        · simpa using source

end Loaded

/-- The entries of an accepted configuration and the generators they come from. -/
structure Generated (config : Config) (entries channels globals : List Entry) : Prop where
  desired : desired config = .ok entries
  union : entries = bucketSort Phase.order Entry.phase
    (orderedEntries config.routes ++ silentEntries config ++ channels ++ globals)
  channels : List.Forall₂ (fun setting entry => ∃ device,
    deviceForName config.deviceName = some device ∧ WrittenAs device setting entry)
    config.channels channels
  globals : List.Forall₂ (fun setting entry => ∃ device,
    deviceForName config.deviceName = some device ∧ GloballyWrittenAs device setting entry)
    config.globals globals

/-- `desired` returns on every accepted configuration. -/
theorem Loaded.generated {config : Config} {declared added : List Route} {mirrors : List Mirror}
    (loaded : Loaded config declared added mirrors) :
    ∃ entries channels globals, Generated config entries channels globals := by
  obtain ⟨channels, channelsRead, channelPairs⟩ := loaded.channelEntries_ok
  obtain ⟨globals, globalsRead, globalPairs⟩ := loaded.globalEntries_ok
  refine ⟨_, channels, globals, ?_, rfl, channelPairs, globalPairs⟩
  unfold OscmixDesk.desired
  rw [loaded.checkDesired_ok, channelsRead, globalsRead]
  rfl

namespace Generated

variable {config : Config} {entries channels globals : List Entry}

theorem perm (generated : Generated config entries channels globals) :
    entries.Perm (orderedEntries config.routes ++ silentEntries config ++ channels ++ globals) :=
  generated.union ▸ bucketSort_entries_perm _

/-- An entry comes from one of the four generators. -/
theorem mem_iff (generated : Generated config entries channels globals) {entry : Entry} :
    entry ∈ entries ↔ entry ∈ (routeEntries config.routes).items ∨ entry ∈ silentEntries config
      ∨ entry ∈ channels ∨ entry ∈ globals := by
  rw [generated.perm.mem_iff]
  simp only [List.mem_append, mem_ordered]
  tauto

theorem channel_paths (generated : Generated config entries channels globals) :
    channels.map (·.path) = config.channels.map ChannelSetting.path :=
  map_eq_map (fun _ _ ⟨_, _, shape, _⟩ => shape.path) generated.channels

theorem global_paths (generated : Generated config entries channels globals) :
    globals.map (·.path) = config.globals.map GlobalSetting.path :=
  map_eq_map (fun _ _ ⟨_, _, shape, _⟩ => shape.path) generated.globals

end Generated

end OscmixDesk
