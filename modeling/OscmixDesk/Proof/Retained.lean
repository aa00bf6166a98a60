/-
**A retained mute and its columns.**

Nobody can read a playback mute, so one that a plan leaves alone protects its pair: the flags, the
link and the crosspoints of every route from it, the base's and the mirrors' included. The silent
cells of a base are not among what is protected. A later pass leaves them alone anyway, as all that a
base writes; a start or a selection does not (`columnsKept_iff`). The protection also stops at
channel 20, the last of one of the two devices.
-/

import OscmixDesk.Proof.Release

set_option maxRecDepth 100000

namespace OscmixDesk

open Checks

/-- A register that a retained mute of a pair protects: a flag, the link or a crosspoint. -/
def OfPair (left : ℕ) (path : Path) : Prop :=
  ∃ channel, (channel = left ∨ channel = left + 1)
    ∧ (path = mutePath channel ∨ path = .link .playback channel
      ∨ ∃ out, path = .mix out .playback channel)

/-- A plan that retains a mute writes no register of its pair. -/
def ColumnsKept (result : Plan) : Prop :=
  ∀ left, left % 2 = 1 →
    (mutePath left ∈ result.retained ∨ mutePath (left + 1) ∈ result.retained) →
      ∀ write ∈ result.writes, ¬ OfPair left write.path

/-- A mute of one of the channels that are protected. -/
def Guarding (leaveAlone : List Path) : Prop :=
  ∃ channel, 1 ≤ channel ∧ channel ≤ 20 ∧ mutePath channel ∈ leaveAlone

/-- A route that the protection of other pairs covers: it is from such a pair, or its outputs' link
is not confirmed. -/
def Guarded (leaveAlone confirmed : List Path) (route : Route) : Prop :=
  (∃ channel, 1 ≤ channel ∧ channel ≤ 20 ∧ mutePath channel ∈ leaveAlone
    ∧ FromPair (pairLeft channel) route)
  ∨ Path.link .output (anchor route.output.first) ∉ confirmed

/-- What a caller that leaves a mute of a pair alone has to leave alone with it: the silent cells of
the base, and for a pair past channel 20 its link and crosspoints too. -/
structure Spared (config : Config) (leaveAlone confirmed : List Path) (left : ℕ) : Prop where
  silent : ∀ entry ∈ silentEntries config, OfPair left entry.path → entry.path ∈ leaveAlone
  link : 20 < left → ∀ route ∈ config.routes, .link .playback left ∈ linkPaths route →
    .link .playback left ∈ leaveAlone
  cells : 20 < left → ∀ route ∈ config.routes, ∀ cell ∈ mixPaths route, OfPair left cell →
    cell ∈ leaveAlone ∨ Guarding leaveAlone
      ∧ ∃ other ∈ config.routes, cell ∈ mixPaths other ∧ Guarded leaveAlone confirmed other

/-- A later pass, or a caller that leaves alone with a mute what belongs to it. -/
def Spares (config : Config) (intent : ApplyIntent) (leaveAlone confirmed : List Path) : Prop :=
  intent.preservesRemember = true ∨ ∀ left, left % 2 = 1 →
    (mutePath left ∈ leaveAlone ∨ mutePath (left + 1) ∈ leaveAlone) →
      Spared config leaveAlone confirmed left

/-! ### What is protected -/

theorem mem_retainedPairs {retained : List Path} {left : ℕ} :
    left ∈ retainedPairs retained ↔ ∃ channel, 1 ≤ channel ∧ channel ≤ 20
      ∧ mutePath channel ∈ retained ∧ pairLeft channel = left := by
  unfold retainedPairs
  rw [List.mem_filterMap]
  constructor
  · rintro ⟨path, member, own⟩
    split at own
    · next channel =>
      split at own
      · next small => exact ⟨channel, small.1, small.2, member, Option.some.inj own⟩
      · cases own
    · cases own
  · rintro ⟨channel, positive, small, member, rfl⟩
    refine ⟨mutePath channel, member, ?_⟩
    show (if 1 ≤ channel ∧ channel ≤ 20 then some (pairLeft channel) else none) = _
    rw [if_pos ⟨positive, small⟩]

theorem guarding_iff {retained : List Path} :
    (retainedPairs retained).isEmpty = false ↔ Guarding retained := by
  rw [List.isEmpty_eq_false_iff_exists_mem]
  constructor
  · rintro ⟨left, member⟩
    obtain ⟨channel, positive, small, known, -⟩ := mem_retainedPairs.mp member
    exact ⟨channel, positive, small, known⟩
  · rintro ⟨channel, positive, small, known⟩
    exact ⟨_, mem_retainedPairs.mpr ⟨channel, positive, small, known, rfl⟩⟩

theorem mem_linkPaths_iff {route : Route} {path : Path} :
    path ∈ linkPaths route ↔ path = .link route.kind.family (anchor route.source.first)
      ∨ path = .link .output (anchor route.output.first) := by
  unfold linkPaths
  rw [List.mem_map]
  constructor
  · rintro ⟨message, member, rfl⟩
    rcases mem_linkMessages.mp member with rfl | rfl
    · exact Or.inl rfl
    · exact Or.inr rfl
  · rintro (rfl | rfl)
    · exact ⟨_, mem_linkMessages.mpr (Or.inl rfl), rfl⟩
    · exact ⟨_, mem_linkMessages.mpr (Or.inr rfl), rfl⟩

/-- The links that are protected: those of the pairs, and every output link not confirmed. -/
def protectedLinks (config : Config) (retained confirmed : List Path) : List Path :=
  (retainedPairs retained).flatMap (fun left => [mutePath left, mutePath (left + 1)])
    ++ (retainedPairs retained).flatMap
      (fun left => [.link .playback left, .link .playback (left + 1)])
    ++ (config.routes.flatMap linkPaths).filter fun path =>
      path.inFamily .output && !confirmed.contains path

theorem mem_protectedLinks {config : Config} {retained confirmed : List Path} {path : Path} :
    path ∈ protectedLinks config retained confirmed ↔
      (∃ left ∈ retainedPairs retained, ∃ channel, (channel = left ∨ channel = left + 1)
        ∧ (path = mutePath channel ∨ path = .link .playback channel))
      ∨ ∃ route ∈ config.routes, path = .link .output (anchor route.output.first)
        ∧ path ∉ confirmed := by
  unfold protectedLinks
  simp only [List.mem_append, List.mem_flatMap, List.mem_filter, List.mem_cons, List.not_mem_nil,
    or_false, Bool.and_eq_true, Bool.not_eq_true', List.contains_eq_mem, decide_eq_false_iff_not,
    mem_linkPaths_iff]
  constructor
  · rintro ((⟨left, member, own⟩ | ⟨left, member, own⟩) | ⟨⟨route, known, link⟩, output, unknown⟩)
    · rcases own with rfl | rfl
      · exact Or.inl ⟨left, member, left, Or.inl rfl, Or.inl rfl⟩
      · exact Or.inl ⟨left, member, left + 1, Or.inr rfl, Or.inl rfl⟩
    · rcases own with rfl | rfl
      · exact Or.inl ⟨left, member, left, Or.inl rfl, Or.inr rfl⟩
      · exact Or.inl ⟨left, member, left + 1, Or.inr rfl, Or.inr rfl⟩
    · rcases link with rfl | rfl
      · cases kind : route.kind <;> rw [kind] at output <;> cases output
      · exact Or.inr ⟨route, known, rfl, unknown⟩
  · rintro (⟨left, member, channel, rfl | rfl, rfl | rfl⟩ | ⟨route, known, rfl, unknown⟩)
    · exact Or.inl (Or.inl ⟨channel, member, Or.inl rfl⟩)
    · exact Or.inl (Or.inr ⟨channel, member, Or.inl rfl⟩)
    · exact Or.inl (Or.inl ⟨left, member, Or.inr rfl⟩)
    · exact Or.inl (Or.inr ⟨left, member, Or.inr rfl⟩)
    · exact Or.inr ⟨⟨route, known, Or.inr rfl⟩, rfl, unknown⟩

/-- A route whose source is addressed at a pair's link is from the pair. -/
theorem fromPair_of_link {route : Route} {flag channel : ℕ} (low : 1 ≤ flag)
    (side : channel = pairLeft flag ∨ channel = pairLeft flag + 1)
    (positive : ∀ channel ∈ route.source.toList, 1 ≤ channel)
    (link : Path.link .playback channel
      = .link route.kind.family (anchor route.source.first)) : FromPair (pairLeft flag) route := by
  obtain ⟨family, anchored, -⟩ := Path.channel.inj link
  have kind : route.kind = .playback := by
    cases own : route.kind with
    | input =>
        rw [own] at family
        cases family
    | playback => rfl
  have inSource : route.source.first ∈ route.source.toList := by
    cases route.source <;> simp [Channels.first, Channels.toList]
  have inPlayback : route.source.first ∈ route.playback := mem_playback.mpr ⟨kind, inSource⟩
  have one := positive _ inSource
  have own : route.source.first = pairLeft flag ∨ route.source.first = pairLeft flag + 1 := by
    unfold anchor at anchored
    unfold pairLeft at side ⊢
    split at anchored <;> omega
  rcases own with same | same
  · exact Or.inl (same ▸ inPlayback)
  · exact Or.inr (same ▸ inPlayback)

/-- The test the code makes of a route, as it is meant. -/
theorem guarded_iff {config : Config} {retained confirmed : List Path} {route : Route}
    (known : route ∈ config.routes) (positive : ∀ channel ∈ route.source.toList, 1 ≤ channel) :
    ((route.playback.any fun channel => (retainedPairs retained).any fun left =>
        decide (channel = left) || decide (channel = left + 1))
      || (linkPaths route).any (protectedLinks config retained confirmed).contains) = true
    ↔ Guarded retained confirmed route := by
  rw [Bool.or_eq_true, List.any_eq_true, List.any_eq_true]
  constructor
  · rintro (⟨channel, inSource, own⟩ | ⟨link, needs, own⟩)
    · obtain ⟨left, member, same⟩ := List.any_eq_true.mp own
      obtain ⟨flag, low, high, kept, rfl⟩ := mem_retainedPairs.mp member
      have same : channel = pairLeft flag ∨ channel = pairLeft flag + 1 := by simpa using same
      refine Or.inl ⟨flag, low, high, kept, ?_⟩
      rcases same with rfl | rfl
      · exact Or.inl inSource
      · exact Or.inr inSource
    · rcases mem_protectedLinks.mp (List.contains_iff_mem.mp own) with
        ⟨left, member, channel, side, path⟩ | ⟨other, -, rfl, unknown⟩
      · obtain ⟨flag, low, high, kept, rfl⟩ := mem_retainedPairs.mp member
        have isLink : link = .link .playback channel := by
          rcases path with mute | isLink
          · obtain ⟨family, number, shape⟩ := Generated.mem_linkPaths needs
            have parts := Path.channel.inj (shape.symm.trans mute)
            simp at parts
          · exact isLink
        subst isLink
        rcases mem_linkPaths_iff.mp needs with source | output
        · exact Or.inl ⟨flag, low, high, kept, fromPair_of_link low side positive source⟩
        · cases (Path.channel.inj output).1
      · rcases mem_linkPaths_iff.mp needs with source | output
        · have parts := (Path.channel.inj source).1
          cases kind : route.kind <;> rw [kind] at parts <;> cases parts
        · have same := (Path.channel.inj output).2.1
          exact Or.inr (same ▸ unknown)
  · rintro (⟨flag, low, high, kept, fromPair⟩ | unknown)
    · have member := mem_retainedPairs.mpr ⟨flag, low, high, kept, rfl⟩
      left
      rcases fromPair with inSource | inSource
      · exact ⟨_, inSource, List.any_eq_true.mpr ⟨_, member, by simp⟩⟩
      · exact ⟨_, inSource, List.any_eq_true.mpr ⟨_, member, by simp⟩⟩
    · exact Or.inr ⟨_, mem_linkPaths_iff.mpr (Or.inr rfl),
        List.contains_iff_mem.mpr (mem_protectedLinks.mpr (Or.inr ⟨route, known, rfl, unknown⟩))⟩

theorem protectedEntries_eq (config : Config) (retained confirmed : List Path) :
    protectedEntries config retained confirmed
      = if (retainedPairs retained).isEmpty = true then []
        else protectedLinks config retained confirmed
          ++ (config.routes.filter fun route =>
            (route.playback.any fun channel => (retainedPairs retained).any fun left =>
              decide (channel = left) || decide (channel = left + 1))
            || (linkPaths route).any (protectedLinks config retained confirmed).contains).flatMap
              fun route => (mixMessages route).map (·.path) := rfl

/-- What is protected: the links, and what the guarded routes write. -/
theorem mem_protectedEntries {config : Config} {retained confirmed : List Path} {path : Path}
    (positive : ∀ route ∈ config.routes, ∀ channel ∈ route.source.toList, 1 ≤ channel) :
    path ∈ protectedEntries config retained confirmed ↔ Guarding retained
      ∧ (path ∈ protectedLinks config retained confirmed
        ∨ ∃ route ∈ config.routes, Guarded retained confirmed route
          ∧ path ∈ (mixMessages route).map (·.path)) := by
  rw [protectedEntries_eq]
  by_cases empty : (retainedPairs retained).isEmpty = true
  · rw [if_pos empty]
    refine ⟨fun member => absurd member List.not_mem_nil, fun ⟨guarding, _⟩ => ?_⟩
    have some := guarding_iff.mpr guarding
    rw [empty] at some
    cases some
  · rw [if_neg empty, List.mem_append, List.mem_flatMap]
    have guarding : Guarding retained := guarding_iff.mp (by simpa using empty)
    constructor
    · rintro (link | ⟨route, chosen, member⟩)
      · exact ⟨guarding, Or.inl link⟩
      · obtain ⟨known, holds⟩ := List.mem_filter.mp chosen
        exact ⟨guarding, Or.inr ⟨route, known, (guarded_iff known (positive route known)).mp holds,
          member⟩⟩
    · rintro ⟨-, link | ⟨route, known, holds, member⟩⟩
      · exact Or.inl link
      · have chosen := (guarded_iff known (positive route known)).mpr holds
        exact Or.inr ⟨route, List.mem_filter.mpr ⟨known, chosen⟩, member⟩

/-- A protected crosspoint is a guarded route's. -/
theorem mix_protected {config : Config} {retained confirmed : List Path} {out channel : ℕ}
    {kind : Kind} (positive : ∀ route ∈ config.routes, ∀ channel ∈ route.source.toList, 1 ≤ channel) :
    Path.mix out kind channel ∈ protectedEntries config retained confirmed ↔ Guarding retained
      ∧ ∃ route ∈ config.routes, Path.mix out kind channel ∈ mixPaths route
        ∧ Guarded retained confirmed route := by
  rw [mem_protectedEntries positive]
  refine and_congr_right fun _ => ?_
  constructor
  · rintro (link | ⟨route, known, holds, member⟩)
    · exfalso
      rcases mem_protectedLinks.mp link with ⟨_, -, _, -, mute | link⟩ | ⟨_, -, link, -⟩
      · cases mute
      · cases link
      · cases link
    · exact ⟨route, known, List.mem_filter.mpr ⟨member, rfl⟩, holds⟩
  · rintro ⟨route, known, member, holds⟩
    exact Or.inr ⟨route, known, holds, (List.mem_filter.mp member).1⟩

/-! ### The registers of a pair -/

namespace Loaded

variable {config : Config} {declared added : List Route} {mirrors : List Mirror}

/-- On a device without registers everything is left to the device. -/
theorem unregistered_policy (loaded : Loaded config declared added mirrors)
    (unregistered : ¬ Registered (deviceForName config.deviceName)) (path : Path) :
    config.policy path = .remember := by
  have none : config.policies = [] := by
    rcases loaded.policies with none | registered
    · exact none
    · exact absurd registered unregistered
  have table : registerPolicy (deviceForName config.deviceName) path = .remember := by
    cases modelled : deviceForName config.deviceName with
    | none => rfl
    | some device =>
        have empty : device.registers = [] := by
          by_contra some
          exact unregistered ⟨device, modelled, some⟩
        unfold registerPolicy
        rw [Option.bind_some, empty]
        rfl
  show policyFor path (deviceForName config.deviceName) config.policies = .remember
  unfold policyFor
  rw [none, table]
  split <;> rfl

/-- A device with registers has twenty playback channels. -/
theorem registered_channels (registered : Registered (deviceForName config.deviceName)) :
    ∃ device, deviceForName config.deviceName = some device
      ∧ ∀ channel ∈ device.channelsFor "playback", channel ≤ 20 := by
  obtain ⟨device, modelled, some⟩ := registered
  refine ⟨device, modelled, ?_⟩
  rcases deviceForName_cases modelled with rfl | rfl
  · decide +kernel
  · exact absurd rfl some

end Loaded

namespace Generated

variable {config : Config} {entries channels globals : List Entry}
  {declared added : List Route} {mirrors : List Mirror}

/-- An entry of a pair's registers: a declared mute, the link of a route, a crosspoint of a route or
a silent cell. -/
inductive PairEntry (config : Config) (left : ℕ) (entry : Entry) : Prop
  | mute (channel : ℕ) (value : ℤ) (own : channel = left ∨ channel = left + 1)
      (muted : MutedAs config channel value) (path : entry.path = mutePath channel)
  | link (route : Route) (known : route ∈ config.routes)
      (needs : .link .playback left ∈ linkPaths route) (path : entry.path = .link .playback left)
      (anchored : ∃ channel ∈ route.playback, channel = left ∨ channel = left + 1)
  | cell (route : Route) (known : route ∈ config.routes) (fromPair : FromPair left route)
      (needs : entry.path ∈ mixPaths route)
      (path : ∃ out, entry.path = .mix out .playback route.source.first)
  | silent (known : entry ∈ silentEntries config)

theorem pairEntry (generated : Generated config entries channels globals)
    (loaded : Loaded config declared added mirrors) {left : ℕ} (odd : left % 2 = 1) {entry : Entry}
    (member : entry ∈ entries) (own : OfPair left entry.path) : PairEntry config left entry := by
  obtain ⟨channel, side, path⟩ := own
  rcases path with mute | link | ⟨out, mix⟩
  · obtain ⟨own, value, muted, -, same⟩ :=
      generated.mute_word loaded member (Or.inr (Or.inr ⟨channel, mute⟩))
    have sameChannel : own = channel := mutePath_injective (by rw [← mute, same]; rfl)
    exact .mute channel value side (sameChannel ▸ muted) mute
  · obtain ⟨route, known, message, inLinks, rfl⟩ := generated.link_source loaded member link
    have needs : Path.link .playback channel ∈ linkPaths route := by
      rw [← link]
      exact List.mem_map_of_mem inLinks
    have inSource : route.source.first ∈ route.source.toList := by
      cases route.source <;> simp [Channels.first, Channels.toList]
    have one := loaded.source_positive known _ inSource
    rcases mem_linkPaths_iff.mp needs with source | output
    · obtain ⟨family, anchored, -⟩ := Path.channel.inj source
      have kind : route.kind = .playback := by
        cases own : route.kind with
        | input =>
            rw [own] at family
            cases family
        | playback => rfl
      have facts : channel = left
          ∧ (route.source.first = left ∨ route.source.first = left + 1) := by
        unfold anchor at anchored
        split at anchored <;> omega
      obtain ⟨rfl, sources⟩ := facts
      exact .link route known needs link ⟨_, mem_playback.mpr ⟨kind, inSource⟩, sources⟩
    · cases (Path.channel.inj output).1
  · rcases generated.mem_iff.mp member with routed | silent | setting | global
    · obtain ⟨route, known, ⟨message, inLinks, rfl⟩ | ⟨message, inMix, rfl⟩⟩ :=
        (mem_producedEntries _).mp (mem_produced _ routed)
      · rcases mem_linkMessages.mp inLinks with rfl | rfl <;> cases mix
      · have needs : (message.entry .mix route.base).path ∈ mixPaths route :=
          List.mem_filter.mpr ⟨List.mem_map_of_mem inMix, by rw [mix]; rfl⟩
        obtain ⟨target, -, path⟩ := mem_mixPaths_iff.mp needs
        obtain ⟨-, kind, sameSource⟩ := Path.mix.inj (mix.symm.trans path)
        have inSource : route.source.first ∈ route.playback := mem_playback.mpr
          ⟨kind.symm, by cases route.source <;> simp [Channels.first, Channels.toList]⟩
        refine .cell route known ?_ needs ⟨out, by rw [mix, sameSource]⟩
        rcases side with rfl | rfl
        · exact Or.inl (sameSource ▸ inSource)
        · exact Or.inr (sameSource ▸ inSource)
    · exact .silent silent
    · obtain ⟨own, -, device, -, form, -⟩ := exists_left generated.channels setting
      cases (form.path.symm.trans mix)
    · obtain ⟨own, -, device, -, form, -⟩ := exists_left generated.globals global
      obtain ⟨_, _, shape⟩ := globalPath_shape own
      cases shape.symm.trans (form.path.symm.trans mix)

end Generated

/-! ### What a plan leaves -/

namespace Planned

variable {config : Config} {intent : ApplyIntent} {leaveAlone confirmed : List Path}
  {observed : Option Reports} {entries channels globals : List Entry} {skip : List Path}
  {result : Plan} {declared added : List Route} {mirrors : List Mirror}

/-- A plan writes exactly the paths of the entries it does not retain. -/
theorem written_iff
    (planned : Planned config intent leaveAlone confirmed observed entries skip result)
    {path : Path} : (∃ write ∈ result.writes, write.path = path)
      ↔ path ∉ result.retained ∧ ∃ entry ∈ entries, entry.path = path := by
  rw [← mem_selected, List.mem_map]
  constructor
  · rintro ⟨write, member, rfl⟩
    rcases planned.mem_writes.mp member with selected | ⟨off, selected, -, rfl⟩
    · exact ⟨write, selected, rfl⟩
    · exact ⟨off, selected, rfl⟩
  · rintro ⟨write, selected, same⟩
    exact ⟨write, planned.mem_writes.mpr (Or.inl selected), same⟩

theorem mem_retained
    (planned : Planned config intent leaveAlone confirmed observed entries skip result)
    {path : Path} : path ∈ result.retained ↔
      path ∈ skip ∨ path ∈ protectedEntries config skip confirmed := by
  rw [planned.retained, List.mem_append]

/-- A retained mute comes from one of its pair that was left alone. -/
theorem flag_left
    (planned : Planned config intent leaveAlone confirmed observed entries skip result)
    (loaded : Loaded config declared added mirrors) {left channel : ℕ} (odd : left % 2 = 1)
    (side : channel = left ∨ channel = left + 1) (kept : mutePath channel ∈ result.retained) :
    ∃ flag, (flag = left ∨ flag = left + 1) ∧ mutePath flag ∈ skip := by
  rcases planned.mem_retained.mp kept with own | guarded
  · exact ⟨channel, side, own⟩
  · obtain ⟨-, link | ⟨route, -, -, mix⟩⟩ :=
      (mem_protectedEntries fun route known => loaded.source_positive known).mp guarded
    · rcases mem_protectedLinks.mp link with ⟨pair, member, number, beside, mute | wrong⟩ | ⟨_, -, wrong, -⟩
      · obtain ⟨flag, low, -, known, rfl⟩ := mem_retainedPairs.mp member
        have same : channel = number := mutePath_injective mute
        refine ⟨flag, ?_, known⟩
        unfold pairLeft at beside
        omega
      · simp [mutePath] at wrong
      · simp [mutePath] at wrong
    · exfalso
      obtain ⟨message, inMix, path⟩ := List.mem_map.mp mix
      rcases List.mem_append.mp inMix with cell | volume
      · obtain ⟨_, -, _, _, rfl⟩ := mem_cellMessages cell
        cases path
      · obtain ⟨_, -, _, -, rfl⟩ := mem_volumeMessages.mp volume
        simp [mutePath] at path

/-- Up to channel 20, a retained mute protects all of its pair but the silent cells. -/
theorem near_retained
    (planned : Planned config intent leaveAlone confirmed observed entries skip result)
    (loaded : Loaded config declared added mirrors) {left flag : ℕ} (odd : left % 2 = 1)
    (near : left ≤ 20) (side : flag = left ∨ flag = left + 1) (kept : mutePath flag ∈ skip)
    {entry : Entry} (own : Generated.PairEntry config left entry)
    (loud : entry ∉ silentEntries config) : entry.path ∈ result.retained := by
  have low : 1 ≤ flag ∧ flag ≤ 20 := by omega
  have pair : pairLeft flag = left := by
    unfold pairLeft
    omega
  have guarding : Guarding skip := ⟨flag, low.1, low.2, kept⟩
  have member : left ∈ retainedPairs skip :=
    mem_retainedPairs.mpr ⟨flag, low.1, low.2, kept, pair⟩
  have positive : ∀ route ∈ config.routes, ∀ channel ∈ route.source.toList, 1 ≤ channel :=
    fun route known => loaded.source_positive known
  refine planned.mem_retained.mpr (Or.inr ?_)
  cases own with
  | mute channel value beside muted path =>
      exact (mem_protectedEntries positive).mpr ⟨guarding, Or.inl (mem_protectedLinks.mpr
        (Or.inl ⟨left, member, channel, beside, Or.inl path⟩))⟩
  | link route known needs path anchored =>
      exact (mem_protectedEntries positive).mpr ⟨guarding, Or.inl (mem_protectedLinks.mpr
        (Or.inl ⟨left, member, left, Or.inl rfl, Or.inr path⟩))⟩
  | cell route known fromPair needs path =>
      obtain ⟨out, path⟩ := path
      rw [path] at needs ⊢
      exact (mix_protected positive).mpr ⟨guarding, route, known, needs,
        Or.inl ⟨flag, low.1, low.2, kept, pair ▸ fromPair⟩⟩
  | silent known => exact absurd known loud

/-- Beyond channel 20 the protection of other pairs reaches no flag and no link. -/
theorem far_unprotected {left channel : ℕ} (loaded : Loaded config declared added mirrors)
    (far : 20 < left) (side : channel = left ∨ channel = left + 1) {path : Path}
    (own : path = mutePath channel ∨ path = .link .playback channel) :
    path ∉ protectedEntries config skip confirmed := by
  intro member
  obtain ⟨-, link | ⟨route, -, -, mix⟩⟩ :=
    (mem_protectedEntries fun route known => loaded.source_positive known).mp member
  · rcases mem_protectedLinks.mp link with ⟨pair, inPairs, number, beside, cases'⟩ | ⟨_, -, output, -⟩
    · obtain ⟨flag, low, high, -, rfl⟩ := mem_retainedPairs.mp inPairs
      have same : channel = number := by
        rcases own with rfl | rfl <;> rcases cases' with mute | link
        · exact mutePath_injective mute
        · simp [mutePath] at link
        · simp [mutePath] at mute
        · exact (Path.channel.inj link).2.1
      unfold pairLeft at beside
      omega
    · rcases own with rfl | rfl
      · simp [mutePath] at output
      · cases (Path.channel.inj output).1
  · obtain ⟨message, inMix, path'⟩ := List.mem_map.mp mix
    rcases List.mem_append.mp inMix with cell | volume
    · obtain ⟨_, -, _, _, rfl⟩ := mem_cellMessages cell
      rcases own with rfl | rfl <;> cases path'
    · obtain ⟨_, -, _, -, rfl⟩ := mem_volumeMessages.mp volume
      rcases own with rfl | rfl <;> simp [mutePath] at path'

/-- A later pass that leaves a mute alone writes nothing of its pair. -/
theorem preserving_kept
    (planned : Planned config intent leaveAlone confirmed observed entries skip result)
    (generated : Generated config entries channels globals)
    (loaded : Loaded config declared added mirrors) (preserves : intent.preservesRemember = true)
    {left flag : ℕ} (odd : left % 2 = 1) (side : flag = left ∨ flag = left + 1)
    (kept : mutePath flag ∈ skip) {entry : Entry} (member : entry ∈ entries)
    (own : OfPair left entry.path) : entry.path ∈ result.retained := by
  have preserved : preservedPaths config entries leaveAlone confirmed observed = .ok skip := by
    have left := planned.left
    unfold leftAlone at left
    rwa [if_pos preserves] at left
  have remembered (holds : isRemembered config entry = true) : entry.path ∈ result.retained :=
    planned.mem_retained.mpr (Or.inl ((mem_preservedPaths generated.desired preserved).mpr
      (Or.inr (Or.inr (Or.inl ⟨entry, member, rfl, holds⟩)))))
  by_cases silent : entry ∈ silentEntries config
  · exact remembered (Generated.isRemembered_iff.mpr (Or.inl (silent_shape silent).2.2.1))
  · have pairEntry := generated.pairEntry loaded odd member own
    by_cases registered : Registered (deviceForName config.deviceName)
    · obtain ⟨device, modelled, small⟩ := Loaded.registered_channels registered
      -- Every channel of the device is below the limit of the protection.
      have near : left ≤ 20 := by
        have ofPlayback (route : Route) (known : route ∈ config.routes) (channel : ℕ)
            (inSource : channel ∈ route.playback) (own : channel = left ∨ channel = left + 1) :
            left ≤ 20 := by
          obtain ⟨kind, inSources⟩ := mem_playback.mp inSource
          have exist := (loaded.route_channels modelled known).1 channel inSources
          rw [kind] at exist
          have := small channel exist
          omega
        cases pairEntry with
        | mute channel value beside muted path =>
            obtain ⟨device', modelled', exist, -⟩ := loaded.muted_channel muted
            have same : device' = device := Option.some.inj (modelled'.symm.trans modelled)
            subst same
            have := small channel exist
            omega
        | link route known needs path anchored =>
            obtain ⟨channel, inSource, own⟩ := anchored
            exact ofPlayback route known channel inSource own
        | cell route known fromPair needs path =>
            rcases fromPair with inSource | inSource
            · exact ofPlayback route known _ inSource (Or.inl rfl)
            · exact ofPlayback route known _ inSource (Or.inr rfl)
        | silent known => exact absurd known silent
      exact planned.near_retained loaded odd near side kept pairEntry silent
    · refine remembered (Generated.isRemembered_iff.mpr (Or.inr ?_))
      rw [loaded.unregistered_policy registered]
      decide

/-- A start or a selection that spares a pair retains every register of it. -/
theorem spared_retained
    (planned : Planned config intent leaveAlone confirmed observed entries leaveAlone result)
    (loaded : Loaded config declared added mirrors) {left flag : ℕ} (odd : left % 2 = 1)
    (side : flag = left ∨ flag = left + 1) (kept : mutePath flag ∈ leaveAlone)
    (spared : Spared config leaveAlone confirmed left) {entry : Entry}
    (pairEntry : Generated.PairEntry config left entry) (own : OfPair left entry.path) :
    entry.path ∈ result.retained := by
  by_cases silent : entry ∈ silentEntries config
  · exact planned.mem_retained.mpr (Or.inl (spared.silent entry silent own))
  · by_cases near : left ≤ 20
    · exact planned.near_retained loaded odd near side kept pairEntry silent
    · have far : 20 < left := by omega
      cases pairEntry with
      | mute channel value beside muted path =>
          obtain ⟨device, modelled, exist, -⟩ := loaded.muted_channel muted
          obtain ⟨setting, member, playback, -, -, -⟩ := muted
          obtain ⟨device', modelled', row, resolved, -⟩ := loaded.settings setting member
          have same : device' = device := Option.some.inj (modelled'.symm.trans modelled)
          subst same
          have known := (optionRegister_eq_some resolved).1
          have registered : Registered (deviceForName config.deviceName) :=
            ⟨device', modelled, List.ne_nil_of_mem known⟩
          obtain ⟨other, modelled'', small⟩ := Loaded.registered_channels registered
          have same : other = device' := Option.some.inj (modelled''.symm.trans modelled)
          subst same
          have := small channel exist
          omega
      | link route known needs path anchored =>
          rw [path]
          exact planned.mem_retained.mpr (Or.inl (spared.link far route known needs))
      | cell route known fromPair needs path =>
          rcases spared.cells far route known _ needs own with inLeave | ⟨guarding, other⟩
          · exact planned.mem_retained.mpr (Or.inl inLeave)
          · obtain ⟨out, path⟩ := path
            obtain ⟨beside, inRoutes, theirs, guarded⟩ := other
            rw [path] at theirs ⊢
            exact planned.mem_retained.mpr (Or.inr
              ((mix_protected fun route known => loaded.source_positive known).mpr
                ⟨guarding, beside, inRoutes, theirs, guarded⟩))
      | silent known => exact absurd known silent

/-- Where a start or a selection keeps every pair, its caller spared them. -/
theorem kept_spared
    (planned : Planned config intent leaveAlone confirmed observed entries leaveAlone result)
    (generated : Generated config entries channels globals)
    (loaded : Loaded config declared added mirrors) {left : ℕ}
    (kept : ∀ write ∈ result.writes, ¬ OfPair left write.path) :
    Spared config leaveAlone confirmed left := by
  have positive : ∀ route ∈ config.routes, ∀ channel ∈ route.source.toList, 1 ≤ channel :=
    fun route known => loaded.source_positive known
  have retained (entry : Entry) (member : entry ∈ entries) (own : OfPair left entry.path) :
      entry.path ∈ result.retained := by
    by_contra free
    obtain ⟨write, written, same⟩ := planned.written_iff.mpr ⟨free, entry, member, rfl⟩
    exact kept write written (same ▸ own)
  refine ⟨fun entry silent own => ?_, fun far route known needs => ?_,
    fun far route known cell needs own => ?_⟩
  · have member : entry ∈ entries := generated.mem_iff.mpr (Or.inr (Or.inl silent))
    rcases planned.mem_retained.mp (retained entry member own) with inLeave | guarded
    · exact inLeave
    · exfalso
      obtain ⟨⟨target, kind, channel, path⟩, -⟩ := silent_shape silent
      rw [path] at guarded
      obtain ⟨-, route, known, needs, -⟩ := (mix_protected positive).mp guarded
      obtain ⟨message, inCells, same⟩ := mem_mixPaths.mp needs
      refine silent_not_routed silent ((mem_keys _ _).mpr
        ⟨_, (mem_producedEntries _).mpr ⟨route, known, Or.inr
          ⟨message, List.mem_append_left _ inCells, rfl⟩⟩, ?_⟩)
      rw [path, ← same]
      rfl
  · obtain ⟨message, inLinks, path⟩ := List.mem_map.mp needs
    have inKeys : Path.link .playback left ∈ (routeEntries config.routes).keys :=
      (mem_keys _ _).mpr ⟨_, (mem_producedEntries _).mpr
        ⟨route, known, Or.inl ⟨message, inLinks, rfl⟩⟩, path⟩
    obtain ⟨entry, held, entryPath⟩ := List.mem_map.mp inKeys
    have own : OfPair left entry.path := ⟨left, Or.inl rfl, Or.inr (Or.inl entryPath)⟩
    have inRetained := retained entry (generated.mem_iff.mpr (Or.inl held)) own
    rw [entryPath] at inRetained
    rcases planned.mem_retained.mp inRetained with inLeave | guarded
    · exact inLeave
    · exact absurd guarded (far_unprotected loaded far (Or.inl rfl) (Or.inr rfl))
  · obtain ⟨message, inCells, path⟩ := mem_mixPaths.mp needs
    have inKeys : cell ∈ (routeEntries config.routes).keys :=
      (mem_keys _ _).mpr ⟨_, (mem_producedEntries _).mpr
        ⟨route, known, Or.inr ⟨message, List.mem_append_left _ inCells, rfl⟩⟩, path⟩
    obtain ⟨entry, held, entryPath⟩ := List.mem_map.mp inKeys
    have inRetained := retained entry (generated.mem_iff.mpr (Or.inl held)) (entryPath ▸ own)
    rw [entryPath] at inRetained
    rcases planned.mem_retained.mp inRetained with inLeave | guarded
    · exact Or.inl inLeave
    · obtain ⟨out, -, shape⟩ := mem_mixPaths_iff.mp needs
      rw [shape] at guarded ⊢
      exact Or.inr ((mix_protected positive).mp guarded)

end Planned

/-! ### The result -/

/-- A plan keeps the pairs whose mute it retains exactly when a later pass made it, or the caller
left alone with the mute the silent cells of the base, and past channel 20 the rest of the pair. -/
theorem columnsKept_iff {config : Config} (accepted : Accepted config) {intent : ApplyIntent}
    {leaveAlone confirmed : List Path} {observed : Option Reports} {result : Plan}
    (returned : applicationPlan config intent leaveAlone confirmed observed = .ok result) :
    ColumnsKept result ↔ Spares config intent leaveAlone confirmed := by
  obtain ⟨declared, added, mirrors, loaded⟩ := accepted.loaded
  obtain ⟨entries, channels, globals, generated⟩ := loaded.generated
  obtain ⟨others, skip, planned⟩ := applicationPlan_planned returned
  have sameEntries : entries = others :=
    Except.ok.inj (generated.desired.symm.trans planned.desired)
  subst sameEntries
  unfold Spares ColumnsKept
  by_cases preserves : intent.preservesRemember = true
  · refine iff_of_true ?_ (Or.inl preserves)
    intro left odd flags write member own
    have ⟨flag, side, kept⟩ : ∃ flag, (flag = left ∨ flag = left + 1) ∧ mutePath flag ∈ skip := by
      rcases flags with flag | flag
      · exact planned.flag_left loaded odd (Or.inl rfl) flag
      · exact planned.flag_left loaded odd (Or.inr rfl) flag
    obtain ⟨free, entry, known, same⟩ := planned.written_iff.mp ⟨write, member, rfl⟩
    rw [← same] at own free
    exact free (planned.preserving_kept generated loaded preserves odd side kept known own)
  · have sameSkip : leaveAlone = skip := by
      have left := planned.left
      unfold leftAlone at left
      rw [if_neg preserves] at left
      exact pure_eq_ok.mp left
    subst sameSkip
    constructor
    · intro all
      refine Or.inr fun left odd flags => planned.kept_spared generated loaded fun write member => ?_
      refine all left odd ?_ write member
      exact flags.imp (fun own => planned.mem_retained.mpr (Or.inl own))
        fun own => planned.mem_retained.mpr (Or.inl own)
    · rintro (later | spares) left odd flags write member own
      · exact preserves later
      · have ⟨flag, side, kept⟩ :
            ∃ flag, (flag = left ∨ flag = left + 1) ∧ mutePath flag ∈ leaveAlone := by
          rcases flags with flag | flag
          · exact planned.flag_left loaded odd (Or.inl rfl) flag
          · exact planned.flag_left loaded odd (Or.inr rfl) flag
        have inLeave : mutePath left ∈ leaveAlone ∨ mutePath (left + 1) ∈ leaveAlone := by
          rcases side with rfl | rfl
          · exact Or.inl kept
          · exact Or.inr kept
        obtain ⟨free, entry, known, same⟩ := planned.written_iff.mp ⟨write, member, rfl⟩
        rw [← same] at own free
        exact free (planned.spared_retained loaded odd side kept (spares left odd inLeave)
          (generated.pairEntry loaded odd known own) own)

/-- A muted pair beside a route from it. -/
def mutedPair : IniFile where
  sections :=
    [.single "playback:1" "mute" "on", .single "playback:2" "mute" "on",
      .route "route:main" "1/2" "1/2"]
  distinct := by decide

/-- A later pass keeps the remembered pair. -/
theorem mutedPair_later : ∃ result,
    applicationPlan (configOf mutedPair) .reconcile [] [] none = .ok result
      ∧ ColumnsKept result := by
  have returns : (applicationPlan (configOf mutedPair) .reconcile [] [] none).toOption.isSome
      = true := by decide +kernel
  cases returned : applicationPlan (configOf mutedPair) .reconcile [] [] none with
  | error problem =>
      rw [returned] at returns
      cases returns
  | ok result =>
      have kept := columnsKept_iff (accepted_configOf (by decide +kernel)) returned
      exact ⟨result, rfl, kept.mpr (Or.inl rfl)⟩

/-- The same mutes on a desk whose base silences every submix. -/
def clearedSubmixes : IniFile where
  sections :=
    [.single "desk" "base" "clear-submixes",
      .single "playback:1" "mute" "on", .single "playback:2" "mute" "on"]
  distinct := by decide

/-- A selection that leaves the mutes of the pair alone writes silence to its columns. -/
theorem clearedSubmixes_selected :
    Accepted (configOf clearedSubmixes) ∧ ∃ result,
      applicationPlan (configOf clearedSubmixes) .explicit [mutePath 1, mutePath 2] [] none
          = .ok result
        ∧ ¬ ColumnsKept result := by
  refine ⟨accepted_configOf (by decide +kernel), ?_⟩
  have evaluated : (applicationPlan (configOf clearedSubmixes) .explicit
      [mutePath 1, mutePath 2] [] none).toOption.map (fun plan =>
        (plan.retained.contains (mutePath 1),
          plan.writes.any fun write => write.path = .mix 1 .playback 1)) = some (true, true) := by
    decide +kernel
  cases returned : applicationPlan (configOf clearedSubmixes) .explicit
      [mutePath 1, mutePath 2] [] none with
  | error problem =>
      rw [returned] at evaluated
      cases evaluated
  | ok result =>
      rw [returned] at evaluated
      obtain ⟨retained, written⟩ := Prod.mk.inj (Option.some.inj evaluated)
      obtain ⟨write, member, path⟩ := List.any_eq_true.mp written
      have path : write.path = .mix 1 .playback 1 := by simpa using path
      refine ⟨result, rfl, fun kept => ?_⟩
      exact kept 1 (by decide) (Or.inl (List.contains_iff_mem.mp retained)) write member
        ⟨1, Or.inl rfl, Or.inr (Or.inr ⟨1, path⟩)⟩

end OscmixDesk
