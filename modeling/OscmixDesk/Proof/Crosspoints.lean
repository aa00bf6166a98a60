/-
**What a configuration asks of a crosspoint and of a link.**

`desired` restricted to the matrix: the entry of a crosspoint is the winner of what the routes claim
for it, route by route in file order (`mixClaims_eq`), or a silent cell of the base (`silentAt_iff`);
a link is set exactly where some route states it, to what all routes say (`link_iff`).
-/

import OscmixDesk.Proof.Release

namespace OscmixDesk

open Checks

/-! ### Claims, route by route -/

/-- What the routes claim for one crosspoint, in the order it is produced. -/
def mixClaims (routes : List Route) (out : ℕ) (kind : Kind) (channel : ℕ) : List Entry :=
  (producedEntries routes).filter (·.path = .mix out kind channel)

/-- What one route claims for a crosspoint. -/
def routeClaims (out : ℕ) (kind : Kind) (channel : ℕ) (route : Route) : List Entry :=
  ((cellMessages route).filter (·.path = .mix out kind channel)).map (·.entry .mix route.base)

theorem mixClaims_eq (routes : List Route) (out : ℕ) (kind : Kind) (channel : ℕ) :
    mixClaims routes out kind channel = routes.flatMap (routeClaims out kind channel) := by
  have links : (routes.flatMap fun route =>
      (linkMessages route).map (·.entry .link route.base)).filter
        (·.path = .mix out kind channel) = [] := by
    rw [List.filter_eq_nil_iff]
    intro entry member
    obtain ⟨route, -, message, inLinks, rfl⟩ := by simpa using member
    rcases mem_linkMessages.mp inLinks with rfl | rfl <;> simp [Message.entry]
  have each (route : Route) : ((mixMessages route).map (·.entry .mix route.base)).filter
      (·.path = .mix out kind channel) = routeClaims out kind channel route := by
    have volumes : (volumeMessages route).filter
        ((fun entry : Entry => decide (entry.path = .mix out kind channel))
          ∘ (·.entry .mix route.base)) = [] := by
      rw [List.filter_eq_nil_iff]
      intro message member
      obtain ⟨_, -, _, -, rfl⟩ := mem_volumeMessages.mp member
      simp [Message.entry]
    unfold routeClaims mixMessages
    rw [List.filter_map, List.filter_append, volumes, List.append_nil]
    rfl
  unfold mixClaims producedEntries
  rw [List.filter_append, links, List.nil_append, List.filter_flatMap]
  congr 1
  funext route
  exact each route

/-- A route claims the crosspoints of its outputs with its first source, once each. -/
theorem mem_routeClaims {out channel : ℕ} {kind : Kind} {route : Route} {entry : Entry} :
    entry ∈ routeClaims out kind channel route ↔ ∃ message ∈ cellMessages route,
      message.path = .mix out kind channel ∧ entry = message.entry .mix route.base := by
  unfold routeClaims
  rw [List.mem_map]
  constructor
  · rintro ⟨message, member, rfl⟩
    obtain ⟨inCells, path⟩ := List.mem_filter.mp member
    exact ⟨message, inCells, of_decide_eq_true path, rfl⟩
  · rintro ⟨message, inCells, path, rfl⟩
    exact ⟨message, List.mem_filter.mpr ⟨inCells, decide_eq_true path⟩, rfl⟩

/-- The routes set a crosspoint exactly where one of them claims it. -/
theorem mix_mem_keys {routes : List Route} {out channel : ℕ} {kind : Kind} :
    Path.mix out kind channel ∈ (routeEntries routes).keys ↔
      ∃ route ∈ routes, Path.mix out kind channel ∈ mixPaths route := by
  rw [← not_iff_not, ← Keyed.get?_eq_none, routeEntries_get, winner_eq_none]
  show mixClaims routes out kind channel = [] ↔ _
  rw [mixClaims_eq, List.flatMap_eq_nil_iff]
  constructor
  · rintro none ⟨route, known, needs⟩
    obtain ⟨message, inCells, path⟩ := mem_mixPaths.mp needs
    have claimed := mem_routeClaims.mpr ⟨message, inCells, path, rfl⟩
    rw [none route known] at claimed
    cases claimed
  · intro none route known
    rw [List.eq_nil_iff_forall_not_mem]
    intro entry member
    obtain ⟨message, inCells, path, -⟩ := mem_routeClaims.mp member
    exact none ⟨route, known, mem_mixPaths.mpr ⟨message, inCells, path⟩⟩

/-! ### Silent cells -/

/-- Whether silence written to a pair misses a channel: its even one where the pair is linked. -/
def LinkedEven (routes : List Route) (family : Family) (channel : ℕ) : Prop :=
  channel % 2 = 0 ∧ declaredLink routes family (pairLeft channel) = some true

/-- Whether the base's silence has a cell for a crosspoint, were it free of routes. -/
structure SilentAt (config : Config) (out : ℕ) (kind : Kind) (channel : ℕ) : Prop where
  silenced : kind ∈ config.base.silences
  exist : ∃ device, deviceForName config.deviceName = some device
    ∧ out ∈ device.channelsFor "output" ∧ channel ∈ device.channelsFor kind.family.name
  output : ¬ LinkedEven config.routes .output out
  source : ¬ LinkedEven config.routes kind.family channel

/-- A channel is addressed by silence unless it is the even one of a linked pair. -/
theorem mem_addressed_pair {routes : List Route} {family : Family} {channel : ℕ}
    (positive : 1 ≤ channel) :
    channel ∈ addressed (declaredLink routes family (pairLeft channel)) (pairLeft channel)
      ↔ ¬ LinkedEven routes family channel := by
  rw [mem_addressed]
  unfold LinkedEven
  by_cases odd : channel % 2 = 1
  · have left : pairLeft channel = channel := pairLeft_odd odd
    rw [left]
    exact iff_of_true (Or.inl rfl) fun even => by omega
  · have even : channel % 2 = 0 := by omega
    have right : channel = pairLeft channel + 1 := by
      unfold pairLeft
      omega
    constructor
    · rintro (left | ⟨apart, -⟩) ⟨-, linked⟩
      · omega
      · exact apart linked
    · intro free
      exact Or.inr ⟨fun linked => free ⟨even, linked⟩, right⟩

theorem pairLeft_mem_odd {device : Device} (tabled : Tabled device) {family : Family} {channel : ℕ}
    (exist : channel ∈ device.channelsFor family.name) :
    pairLeft channel ∈ oddChannels device family := by
  obtain ⟨half, -, counted⟩ := tabled.mem_odd
  have range := (counted family channel).1.mp exist
  refine (counted family (pairLeft channel)).2.mpr ?_
  unfold pairLeft
  omega

section Config

variable {config : Config}

/-- The silent cells of a configuration, crosspoint by crosspoint. -/
theorem silentAt_iff {out channel : ℕ} {kind : Kind} :
    (∃ entry ∈ silentEntries config, entry.path = .mix out kind channel) ↔
      SilentAt config out kind channel
        ∧ Path.mix out kind channel ∉ (routeEntries config.routes).keys := by
  constructor
  · rintro ⟨entry, silent, path⟩
    have free := silent_not_routed silent
    rw [path] at free
    obtain ⟨device, modelled, cell, member, rfl⟩ := mem_silentEntries.mp silent
    obtain ⟨⟨left, oddLeft, own, silenced, source, oddSource, inBlock⟩, -⟩ :=
      mem_baseEntries.mp member
    obtain ⟨target, inOut, number, inSource, rfl⟩ := mem_blockCells.mp inBlock
    obtain ⟨rfl, rfl, rfl⟩ := Path.mix.inj path
    obtain ⟨outs, odd, next⟩ := mem_oddChannels.mp oddLeft
    obtain ⟨sources, odd', next'⟩ := mem_oddChannels.mp oddSource
    have leftOut := pairLeft_addressed odd inOut
    have leftSource := pairLeft_addressed odd' inSource
    refine ⟨⟨silenced, ⟨device, modelled, ?_, ?_⟩, ?_, ?_⟩, free⟩
    · rcases mem_addressed.mp inOut with same | ⟨-, same⟩
      · exact same ▸ outs
      · exact same ▸ next
    · rcases mem_addressed.mp inSource with same | ⟨-, same⟩
      · exact same ▸ sources
      · exact same ▸ next'
    · refine (mem_addressed_pair ?_).mp (leftOut ▸ inOut)
      rcases mem_addressed.mp inOut with same | ⟨-, same⟩ <;> omega
    · refine (mem_addressed_pair ?_).mp (leftSource ▸ inSource)
      rcases mem_addressed.mp inSource with same | ⟨-, same⟩ <;> omega
  · rintro ⟨⟨silenced, ⟨device, modelled, outExists, sourceExists⟩, output, source⟩, free⟩
    have tabled := deviceForName_tabled modelled
    obtain ⟨half, -, counted⟩ := tabled.mem_channels
    have one := ((counted .output out).mp outExists).1
    have one' := ((counted kind.family channel).mp sourceExists).1
    have oddOut : pairLeft out ∈ oddChannels device .output := pairLeft_mem_odd tabled outExists
    have inBlock : silentCell config.routes (pairLeft out) out kind (pairLeft channel) channel
        ∈ blockCells config.routes (pairLeft out) kind (pairLeft channel) :=
      mem_blockCells.mpr ⟨out, (mem_addressed_pair one).mpr output, channel,
        (mem_addressed_pair one').mpr source, rfl⟩
    refine ⟨_, mem_silentEntries.mpr ⟨device, modelled, _, mem_baseEntries.mpr
      ⟨⟨pairLeft out, oddOut, kind, silenced,
        pairLeft channel, pairLeft_mem_odd tabled sourceExists, inBlock⟩, free⟩, rfl⟩, rfl⟩

end Config

/-! ### The entries of a crosspoint and of a link -/

theorem encode_path {path : Path} {row : Register} {value : Value} {entry : Entry}
    (encoded : encode path row value = .ok entry) : entry.path = path := by
  unfold encode at encoded
  split at encoded
  · obtain ⟨number, -, same⟩ := bind_eq_ok.mp encoded
    rw [← pure_eq_ok.mp same]
  · obtain ⟨⟨⟩, -, encoded⟩ := bind_eq_ok.mp encoded
    split at encoded
    · obtain ⟨number, -, same⟩ := bind_eq_ok.mp encoded
      rw [← pure_eq_ok.mp same]
    · obtain ⟨number, -, same⟩ := bind_eq_ok.mp encoded
      rw [← pure_eq_ok.mp same]

section Asked

variable {config : Config} {entries : List Entry}

/-- What a loop kept came from one of its turns. -/
theorem mem_kept {α β : Type} {items : List α} {f : α → Except Fault (Option β)} {results : List β}
    (read : (do return (← items.mapM f).filterMap id) = Except.ok results) {result : β} (member : result ∈ results) :
    ∃ item, f item = .ok (some result) := by
  obtain ⟨found, each, same⟩ := bind_eq_ok.mp read
  rw [← pure_eq_ok.mp same] at member
  obtain ⟨own, inFound, kept⟩ := List.mem_filterMap.mp member
  obtain rfl : own = some result := kept
  obtain ⟨item, -, given⟩ := mem_of_mapM each inFound
  exact ⟨item, given⟩

theorem channelEntries_path {channels : List Entry} (read : channelEntries config = .ok channels) {entry : Entry}
    (member : entry ∈ channels) : ∃ setting : ChannelSetting, entry.path = setting.path := by
  unfold channelEntries at read
  split at read
  · cases read
    cases member
  next device _ =>
    obtain ⟨setting, given⟩ := mem_kept read member
    refine ⟨setting, ?_⟩
    unfold channelEntry at given
    split at given
    next row _ =>
      obtain ⟨own, encoded, same⟩ := bind_eq_ok.mp given
      obtain rfl := Option.some.inj (pure_eq_ok.mp same)
      exact encode_path encoded
    next => split at given <;> cases given

theorem globalEntries_path {globals : List Entry} (read : globalEntries config = .ok globals) {entry : Entry}
    (member : entry ∈ globals) : ∃ setting : GlobalSetting, entry.path = setting.path := by
  unfold globalEntries at read
  split at read
  · cases read
    cases member
  next device _ =>
    obtain ⟨setting, given⟩ := mem_kept read member
    refine ⟨setting, ?_⟩
    unfold globalEntry at given
    split at given
    next row _ =>
      obtain ⟨own, encoded, same⟩ := bind_eq_ok.mp given
      obtain rfl := Option.some.inj (pure_eq_ok.mp same)
      exact encode_path encoded
    next => cases given

/-- What is asked of a matrix register is the winner of the routes' claims to it, or silence of the base. -/
theorem mem_desired_mix (asked : desired config = .ok entries) {entry : Entry} {out source : ℕ} {kind : Kind}
    (path : entry.path = .mix out kind source) :
    entry ∈ entries ↔ winner (mixClaims config.routes out kind source) = some entry ∨ entry ∈ silentEntries config := by
  unfold desired at asked
  obtain ⟨⟨⟩, -, rest⟩ := bind_eq_ok.mp asked
  obtain ⟨channels, channelsRead, rest⟩ := bind_eq_ok.mp rest
  obtain ⟨globals, globalsRead, rest⟩ := bind_eq_ok.mp rest
  rw [← pure_eq_ok.mp rest, (bucketSort_entries_perm _).mem_iff]
  have routed : winner (mixClaims config.routes out kind source) = some entry
      ↔ entry ∈ (routeEntries config.routes).items := by
    show winner ((producedEntries config.routes).filter (·.path = .mix out kind source)) = _ ↔ _
    rw [← routeEntries_get, Keyed.get?_eq_some]
    exact ⟨And.left, fun member => ⟨member, path⟩⟩
  rw [routed]
  simp only [List.mem_append, mem_ordered]
  constructor
  · rintro (((item | silent) | setting) | global)
    · exact .inl item
    · exact .inr silent
    · obtain ⟨own, same⟩ := channelEntries_path channelsRead setting
      cases same.symm.trans path
    · obtain ⟨own, same⟩ := globalEntries_path globalsRead global
      obtain ⟨_, _, shape⟩ := globalPath_shape own
      cases shape.symm.trans (same.symm.trans path)
  · rintro (item | silent)
    · exact .inl (.inl (.inl item))
    · exact .inl (.inl (.inr silent))

end Asked

namespace Generated

variable {config : Config} {entries channels globals : List Entry}
  {declared added : List Route} {mirrors : List Mirror}

/-- An entry on a crosspoint is the winner of the routes' claims, or a silent cell. -/
theorem crosspoint_iff (generated : Generated config entries channels globals) {entry : Entry}
    {out channel : ℕ} {kind : Kind} (path : entry.path = .mix out kind channel) :
    entry ∈ entries ↔ winner (mixClaims config.routes out kind channel) = some entry
      ∨ entry ∈ silentEntries config :=
  mem_desired_mix generated.desired path

/-- A link is set where some route states it, to what every route says. -/
theorem link_iff (generated : Generated config entries channels globals)
    (loaded : Loaded config declared added mirrors) {family : Family} {channel : ℕ} {args : Args} :
    (∃ entry ∈ entries, entry.path = .link family channel ∧ entry.args = args) ↔
      ∃ linked, declaredLink config.routes family channel = some linked
        ∧ args = [boolArg linked] := by
  have stated (route : Route) (known : route ∈ config.routes) (message : Message)
      (inLinks : message ∈ linkMessages route) (path : message.path = .link family channel) :
      ∃ linked, declaredLink config.routes family channel = some linked
        ∧ message.args = [boolArg linked] := by
    rcases mem_linkMessages.mp inLinks with rfl | rfl
    · obtain ⟨rfl, rfl, -⟩ := Path.channel.inj path
      exact ⟨_, loaded.sourceLink_declared known, rfl⟩
    · obtain ⟨rfl, rfl, -⟩ := Path.channel.inj path
      exact ⟨_, loaded.outputLink_declared known, rfl⟩
  constructor
  · rintro ⟨entry, member, path, rfl⟩
    obtain ⟨route, known, message, inLinks, rfl⟩ := generated.link_source loaded member path
    exact stated route known message inLinks path
  · rintro ⟨linked, declares, rfl⟩
    obtain ⟨route, known, states⟩ := mem_allRequirements.mp (declaredLink_eq_some declares)
    have ⟨message, inLinks, path⟩ : ∃ message ∈ linkMessages route,
        message.path = .link family channel := by
      rcases states with source | output
      · refine ⟨_, mem_linkMessages.mpr (Or.inl rfl), ?_⟩
        rw [← source]
        have family := congrArg LinkRequirement.family source
        exact congrArg (Path.link · channel) family.symm
      · refine ⟨_, mem_linkMessages.mpr (Or.inr rfl), ?_⟩
        rw [← output]
        have family := congrArg LinkRequirement.family output
        exact congrArg (Path.link · channel) family.symm
    have inKeys : Path.link family channel ∈ (routeEntries config.routes).keys :=
      (mem_keys _ _).mpr ⟨_, (mem_producedEntries _).mpr
        ⟨route, known, Or.inl ⟨message, inLinks, rfl⟩⟩, path⟩
    obtain ⟨entry, held, entryPath⟩ := List.mem_map.mp inKeys
    have member : entry ∈ entries := generated.mem_iff.mpr (Or.inl held)
    obtain ⟨other, inRoutes, said, inLinks', rfl⟩ :=
      generated.link_source loaded member entryPath
    obtain ⟨same, declares', args⟩ := stated other inRoutes said inLinks' entryPath
    have equal : linked = same := Option.some.inj (declares.symm.trans declares')
    exact ⟨_, member, entryPath, equal ▸ args⟩

end Generated

end OscmixDesk
