/-
**What the writes of a route affect.**

A link write affects the pair of its channel, a mix write what its address reaches once the links of
the routes hold. On two sides that are hardware pairs, or on single channels, these are channels of
the pairs the route names (`confined_of_hardware`). The loader checks the shape of a side only where
the route has a balance; a route of the file without one may name two channels of different pairs,
and then its link write affects a channel the file never mentions (`confined_iff`).
-/

import OscmixDesk.Model.Fold
import OscmixDesk.Proof.Submix

set_option maxRecDepth 100000

namespace OscmixDesk

open Checks

/-- A side is one channel, or the two channels of a hardware pair. -/
def Channels.Hardware (channels : Channels) : Prop :=
  channels.isPair = true → channels.adjacent = true

instance (channels : Channels) : Decidable channels.Hardware :=
  inferInstanceAs (Decidable (_ → _))

/-- The channels a side speaks for: the pair of its channel, or exactly its two. -/
def Channels.Names (channels : Channels) (channel : ℕ) : Prop :=
  match channels with
  | .mono own => pairLeft channel = pairLeft own
  | .pair left right => channel = left ∨ channel = right

/-- The channels a route speaks for, with their families. -/
def Route.Names (route : Route) (place : Family × ℕ) : Prop :=
  (place.1 = route.kind.family ∧ route.source.Names place.2)
    ∨ (place.1 = .output ∧ route.output.Names place.2)

/-- The writes of a route affect what it names and no more: of a side of two channels, both. -/
structure Confined (links : Links) (route : Route) : Prop where
  within : ∀ message ∈ linkMessages route ++ mixMessages route,
    ∀ place ∈ message.touched links, route.Names place
  source : ∀ channel ∈ route.source.toList, ∃ message ∈ linkMessages route ++ mixMessages route,
    (route.kind.family, channel) ∈ message.touched links
  output : ∀ channel ∈ route.output.toList, ∃ message ∈ linkMessages route ++ mixMessages route,
    (Family.output, channel) ∈ message.touched links
  hardware : route.source.Hardware ∧ route.output.Hardware

/-! ### Sides -/

theorem anchor_pairLeft {channel : ℕ} (positive : 1 ≤ channel) :
    anchor channel = pairLeft channel := by
  unfold anchor pairLeft
  split <;> omega

theorem pairLeft_pairLeft (channel : ℕ) : pairLeft (pairLeft channel) = pairLeft channel := by
  unfold pairLeft
  omega

theorem pairLeft_next {channel : ℕ} (positive : 1 ≤ channel) :
    pairLeft (pairLeft channel + 1) = pairLeft channel := by
  unfold pairLeft
  omega

/-- A side that is a hardware pair, or one channel, speaks for the pair of its first channel. -/
theorem Channels.names_pair {channels : Channels} (hardware : channels.Hardware)
    (positive : ∀ channel ∈ channels.toList, 1 ≤ channel) {channel : ℕ}
    (same : channel = pairLeft channels.first ∨ channel = pairLeft channels.first + 1) :
    channels.Names channel := by
  cases shape : channels with
  | mono own =>
      subst shape
      have own_pos : 1 ≤ own := positive own (by simp [Channels.toList])
      show pairLeft channel = pairLeft own
      rcases same with rfl | rfl
      · exact pairLeft_pairLeft own
      · exact pairLeft_next own_pos
  | pair left right =>
      subst shape
      obtain ⟨odd, pair⟩ := adjacent_pair (hardware rfl)
      have next : right = left + 1 := (Channels.pair.inj pair).2
      have first : pairLeft left = left := pairLeft_odd odd
      show channel = left ∨ channel = right
      rw [next]
      exact same.imp (fun h => h.trans first) fun h => h.trans (by rw [show
        (Channels.pair left right).first = left from rfl, first])

theorem Channels.names_self {channels : Channels} {channel : ℕ}
    (member : channel ∈ channels.toList) : channels.Names channel := by
  cases channels with
  | mono own =>
      obtain rfl : channel = own := by simpa [Channels.toList] using member
      rfl
  | pair left right =>
      have either : channel = left ∨ channel = right := by simpa [Channels.toList] using member
      exact either

/-- The channels of such a side are of one pair. -/
theorem Channels.pairLeft_mem {channels : Channels} (hardware : channels.Hardware) {channel : ℕ}
    (member : channel ∈ channels.toList) : pairLeft channel = pairLeft channels.first := by
  cases shape : channels with
  | mono own =>
      subst shape
      obtain rfl : channel = own := by simpa [Channels.toList] using member
      rfl
  | pair left right =>
      subst shape
      obtain ⟨odd, pair⟩ := adjacent_pair (hardware rfl)
      have oddLeft : left % 2 = 1 := odd
      have next : right = left + 1 := (Channels.pair.inj pair).2
      have either : channel = left ∨ channel = right := by simpa [Channels.toList] using member
      show pairLeft channel = pairLeft left
      rcases either with rfl | rfl
      · rfl
      · rw [next, pairLeft_even oddLeft, pairLeft_odd oddLeft]

/-- A channel is one of its pair's two. -/
theorem mem_pair {channel : ℕ} (positive : 1 ≤ channel) :
    channel = pairLeft channel ∨ channel = pairLeft channel + 1 := by
  unfold pairLeft
  omega

/-- What an address reaches is of the pair of the channel, or the channel alone. -/
theorem mem_reached {links : Links} {family : Family} {channel other : ℕ}
    (member : other ∈ links.reached family channel) :
    other = channel ∨ other = pairLeft channel ∨ other = pairLeft channel + 1 := by
  unfold Links.reached at member
  split at member
  · exact Or.inr (by simpa using member)
  · exact Or.inl (by simpa using member)

/-! ### Routes -/

section Route

variable {route : Route} (sourcePositive : ∀ channel ∈ route.source.toList, 1 ≤ channel)
  (outputPositive : ∀ channel ∈ route.output.toList, 1 ≤ channel)
  (source : route.source.Hardware) (output : route.output.Hardware)

include outputPositive output in
/-- What an address of one of the outputs reaches is named. -/
theorem names_output {links : Links} {out channel : ℕ} (inOutput : out ∈ route.output.toList)
    (member : channel ∈ links.reached .output out) : route.Names (.output, channel) := by
  refine Or.inr ⟨rfl, ?_⟩
  rcases mem_reached member with rfl | pair
  · exact Channels.names_self inOutput
  · rw [Channels.pairLeft_mem output inOutput] at pair
    exact Channels.names_pair output outputPositive pair

include sourcePositive source in
/-- What the address of the source reaches is named. -/
theorem names_source {links : Links} {channel : ℕ}
    (member : channel ∈ links.reached route.kind.family route.source.first) :
    route.Names (route.kind.family, channel) := by
  refine Or.inl ⟨rfl, ?_⟩
  rcases mem_reached member with rfl | pair
  · exact Channels.names_self route.source.first_mem
  · exact Channels.names_pair source sourcePositive pair

include sourcePositive outputPositive source output in
/-- **On hardware pairs and single channels, a route affects what it names.** -/
theorem confined_of_hardware (links : Links) : Confined links route := by
  have sourceFirst : anchor route.source.first = pairLeft route.source.first :=
    anchor_pairLeft (sourcePositive _ route.source.first_mem)
  have outputFirst : anchor route.output.first = pairLeft route.output.first :=
    anchor_pairLeft (outputPositive _ route.output.first_mem)
  have ofSource : (⟨.link route.kind.family route.sourceLink.channel, "i",
      [boolArg route.source.isPair]⟩ : Message) ∈ linkMessages route ++ mixMessages route :=
    List.mem_append_left _ (mem_linkMessages.mpr (Or.inl rfl))
  have ofOutput : (⟨.link .output route.outputLink.channel, "i",
      [boolArg (route.output.isPair && route.stereo)]⟩ : Message)
        ∈ linkMessages route ++ mixMessages route :=
    List.mem_append_left _ (mem_linkMessages.mpr (Or.inr rfl))
  refine ⟨?_, ?_, ?_, source, output⟩
  · intro message member place touched
    rcases List.mem_append.mp member with link | mix
    · rcases mem_linkMessages.mp link with rfl | rfl
      · have two : place = (route.kind.family, pairLeft (anchor route.source.first))
            ∨ place = (route.kind.family, pairLeft (anchor route.source.first) + 1) := by
          simpa [Message.touched, Route.sourceLink] using touched
        rw [sourceFirst, pairLeft_pairLeft] at two
        refine Or.inl ⟨?_, Channels.names_pair source sourcePositive ?_⟩
        · rcases two with rfl | rfl <;> rfl
        · exact two.imp (congrArg Prod.snd) (congrArg Prod.snd)
      · have two : place = (Family.output, pairLeft (anchor route.output.first))
            ∨ place = (Family.output, pairLeft (anchor route.output.first) + 1) := by
          simpa [Message.touched, Route.outputLink] using touched
        rw [outputFirst, pairLeft_pairLeft] at two
        refine Or.inr ⟨?_, Channels.names_pair output outputPositive ?_⟩
        · rcases two with rfl | rfl <;> rfl
        · exact two.imp (congrArg Prod.snd) (congrArg Prod.snd)
    · rcases List.mem_append.mp mix with cell | volume
      · obtain ⟨out, inOutput, level, pan, rfl⟩ := mem_cellMessages cell
        rcases List.mem_append.mp touched with outs | sources
        · obtain ⟨channel, reached, rfl⟩ := List.mem_map.mp outs
          exact names_output outputPositive output inOutput reached
        · obtain ⟨channel, reached, rfl⟩ := List.mem_map.mp sources
          exact names_source sourcePositive source reached
      · obtain ⟨level, -, out, inOutput, rfl⟩ := mem_volumeMessages.mp volume
        obtain ⟨channel, reached, rfl⟩ := List.mem_map.mp touched
        exact names_output outputPositive output inOutput reached
  · intro channel member
    refine ⟨_, ofSource, ?_⟩
    have own := mem_pair (sourcePositive channel member)
    rw [Channels.pairLeft_mem source member] at own
    simpa [Message.touched, Route.sourceLink, sourceFirst, pairLeft_pairLeft] using own
  · intro channel member
    refine ⟨_, ofOutput, ?_⟩
    have own := mem_pair (outputPositive channel member)
    rw [Channels.pairLeft_mem output member] at own
    simpa [Message.touched, Route.outputLink, outputFirst, pairLeft_pairLeft] using own

end Route

/-! ### The routes of a configuration -/

/-- A balance is declared on two hardware pairs only. -/
theorem checkedPan_hardware {route : Route} {pan : ℤ} (checked : route.checkedPan = .ok pan)
    (balanced : route.pan ≠ 0) :
    route.source.adjacent = true ∧ route.output.adjacent = true := by
  unfold Route.checkedPan at checked
  by_cases range : -100 ≤ route.pan ∧ route.pan ≤ 100
  · rw [if_neg (not_not.mpr range)] at checked
    rw [if_pos balanced] at checked
    by_cases shape : (!route.stereo || !(route.source.toList ++ route.output.toList).all inChannelRange
        || !route.source.adjacent || !route.output.adjacent) = true
    · rw [if_pos shape] at checked
      cases checked
    · simp only [Bool.not_eq_true, Bool.or_eq_false_iff, Bool.not_eq_false'] at shape
      exact ⟨shape.1.2, shape.2⟩
  · rw [if_pos range] at checked
    cases checked

/-- A route that the file itself names, without a balance. -/
def Route.Plain (route : Route) : Prop :=
  route.base = false ∧ route.mirrorOf = none ∧ route.pan = 0

instance (route : Route) : Decidable route.Plain :=
  inferInstanceAs (Decidable (_ ∧ _))

/-- Where the sides of the file's own routes without a balance are hardware pairs, all are. -/
theorem Loaded.hardware {config : Config} {declared added : List Route} {mirrors : List Mirror}
    (loaded : Loaded config declared added mirrors)
    (plain : ∀ route ∈ config.routes, route.Plain →
      route.source.Hardware ∧ route.output.Hardware) {route : Route}
    (member : route ∈ config.routes) : route.source.Hardware ∧ route.output.Hardware := by
  have layers (original : Route) (known : original ∈ declared ++ added) :
      original.source.Hardware ∧ original.output.Hardware := by
    rcases List.mem_append.mp known with file | base
    · have parsed := loaded.parsed original file
      by_cases balanced : original.pan = 0
      · exact plain original (loaded.mem_routes.mpr (Or.inl known))
          ⟨parsed.declared, parsed.original, balanced⟩
      · obtain ⟨pan, checked⟩ := parsed.balanced
        obtain ⟨sourcePair, outputPair⟩ := checkedPan_hardware checked balanced
        exact ⟨fun _ => sourcePair, fun _ => outputPair⟩
    · obtain ⟨device, -, -, left, odd, -, diagonal, -⟩ := loaded.mem_added base
      have oddLeft := (mem_oddChannels.mp odd).2.1
      cases diagonal with
      | mono channel =>
          refine ⟨?_, ?_⟩
          · intro pair
            cases pair
          · intro pair
            cases pair
      | pair =>
          have adjacent : (Channels.pair left (left + 1)).adjacent = true := by
            simp [Channels.adjacent, oddLeft]
          exact ⟨fun _ => adjacent, fun _ => adjacent⟩
  rcases loaded.mem_routes.mp member with layer | ⟨mirror, known, original, layer, own, rfl⟩
  · exact layers route layer
  · obtain ⟨device, -, shape⟩ := loaded.mirror_shape known
    exact ⟨(layers original layer).1, shape.targetPair⟩

/-- The output channels of the routes count from one. -/
theorem Loaded.output_positive {config : Config} {declared added : List Route}
    {mirrors : List Mirror} (loaded : Loaded config declared added mirrors) {route : Route}
    (member : route ∈ config.routes) : ∀ channel ∈ route.output.toList, 1 ≤ channel := by
  have counted (device : Device) (modelled : deviceForName config.deviceName = some device)
      (channel : ℕ) (exist : channel ∈ device.channelsFor "output") : 1 ≤ channel := by
    obtain ⟨half, -, counted⟩ := (deviceForName_tabled modelled).mem_channels
    exact ((counted .output channel).mp exist).1
  have layers (original : Route) (known : original ∈ declared ++ added) :
      ∀ channel ∈ original.output.toList, 1 ≤ channel := by
    intro channel inOutput
    rcases List.mem_append.mp known with file | base
    · exact ((loaded.parsed original file).output channel inOutput).1
    · obtain ⟨device, modelled, -, left, odd, -, diagonal, -⟩ := loaded.mem_added base
      obtain ⟨here, oddLeft, next⟩ := mem_oddChannels.mp odd
      cases diagonal with
      | mono own isOwn =>
          obtain rfl : channel = own := by simpa [monoDiagonal, Channels.toList] using inOutput
          omega
      | pair =>
          have either : channel = left ∨ channel = left + 1 := by
            simpa [pairDiagonal, Channels.toList] using inOutput
          omega
  rcases loaded.mem_routes.mp member with layer | ⟨mirror, known, original, layer, own, rfl⟩
  · exact layers route layer
  · obtain ⟨device, modelled, shape⟩ := loaded.mirror_shape known
    intro channel inTarget
    exact counted device modelled channel (shape.target channel inTarget)

/-- The routes of a configuration affect only what they name, whatever is linked, exactly where the
file's own routes without a balance are of single channels and hardware pairs. -/
theorem confined_iff {config : Config} (accepted : Accepted config) :
    (∀ route ∈ config.routes, ∀ links : Links, Confined links route)
      ↔ ∀ route ∈ config.routes, route.Plain →
          route.source.Hardware ∧ route.output.Hardware := by
  obtain ⟨declared, added, mirrors, loaded⟩ := accepted.loaded
  constructor
  · intro confined route member _
    exact (confined route member fun _ _ => false).hardware
  · intro plain route member links
    obtain ⟨source, output⟩ := loaded.hardware plain member
    exact confined_of_hardware (loaded.source_positive member) (loaded.output_positive member)
      source output links

/-- The desk of one plain stereo route. -/
def plainDesk : IniFile where
  sections := [.route "route:main" "1/2" "3/4"]
  distinct := List.nodup_singleton _

theorem plainDesk_confined :
    ∃ route ∈ (configOf plainDesk).routes, route.output = .pair 3 4
      ∧ Confined (fun _ _ => true) route := by
  have accepted : Accepted (configOf plainDesk) := accepted_configOf (by decide +kernel)
  have ⟨route, member, output⟩ : ∃ route ∈ (configOf plainDesk).routes,
      route.output = .pair 3 4 := by decide +kernel
  exact ⟨route, member, output, (confined_iff accepted).mpr (by decide +kernel) route member _⟩

/-- The desk of a route of two outputs that are no hardware pair. -/
def splitOutputs : IniFile where
  sections := [.route "route:main" "1/2" "9/4"]
  distinct := List.nodup_singleton _

/-- Its link write, `/output/9/stereo`, affects output 10, which the file never mentions. -/
theorem splitOutputs_unconfined :
    Accepted (configOf splitOutputs) ∧ ∃ route ∈ (configOf splitOutputs).routes,
      ∀ links : Links, (∃ message ∈ linkMessages route,
        (Family.output, 10) ∈ message.touched links ∧ ¬ route.Names (.output, 10))
        ∧ ¬ Confined links route := by
  refine ⟨accepted_configOf (by decide +kernel), ?_⟩
  have ⟨route, member, shape⟩ : ∃ route ∈ (configOf splitOutputs).routes,
      route.kind = .playback ∧ route.output = .pair 9 4 := by decide +kernel
  refine ⟨route, member, fun links => ?_⟩
  have link : (⟨.link .output route.outputLink.channel, "i",
      [boolArg (route.output.isPair && route.stereo)]⟩ : Message) ∈ linkMessages route :=
    mem_linkMessages.mpr (Or.inr rfl)
  have touches : (Family.output, 10) ∈ Message.touched links ⟨.link .output
      route.outputLink.channel, "i", [boolArg (route.output.isPair && route.stereo)]⟩ := by
    simp [Message.touched, Route.outputLink, shape.2, Channels.first, anchor, pairLeft]
  have unnamed : ¬ route.Names (.output, 10) := by
    unfold Route.Names
    rw [shape.1, shape.2]
    simp [Channels.Names, Kind.family]
  exact ⟨⟨_, link, touches, unnamed⟩,
    fun confined => unnamed (confined.within _ (List.mem_append_left _ link) _ touches)⟩

end OscmixDesk
