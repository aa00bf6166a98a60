/-
**The three layers of the routes.**

The routes of an accepted configuration are the file's, the base's beneath them, and the copies the
mirrors make of both (`Loaded.routes_eq`). What the loader has refused keeps the layers apart: a
mirror's target has no route of its own, a mirrored source is used whole, and a base plays a pair on
its outputs only where no route of the file sets a cell of it (`mem_added`).
-/

import OscmixDesk.Proof.Silence

namespace OscmixDesk

open Checks

/-! ### Mirrors -/

theorem firstRepeated_eq_none {channels : List ℕ} :
    firstRepeated channels = none ↔ channels.Nodup := by
  induction channels with
  | nil => simp [firstRepeated]
  | cons channel rest ih =>
      unfold firstRepeated
      rw [List.nodup_cons]
      by_cases repeated : channel ∈ rest
      · simp [repeated]
      · simp [repeated, ih]

/-- The mirrors of an accepted configuration and the routes beside them. -/
structure Expanded (routes : List Route) (mirrors : List Mirror) (result : List Route) : Prop where
  targets : (mirroredOutputs mirrors).Nodup
  original : ∀ mirror ∈ mirrors, ∀ channel ∈ mirror.source.toList,
    channel ∉ mirroredOutputs mirrors
  whole : ∀ route ∈ routes, ∀ mirror ∈ mirrors, ∀ channel ∈ route.output.toList,
    channel ∈ mirror.source.toList → route.output = mirror.source
  free : ∀ route ∈ routes, ∀ channel ∈ route.output.toList, channel ∉ mirroredOutputs mirrors
  result : result = routes ++ mirrors.flatMap (mirrorCopies routes)

theorem expandMirrors_expanded {routes result : List Route} {mirrors : List Mirror}
    (expanded : expandMirrors routes mirrors = .ok result) : Expanded routes mirrors result := by
  unfold expandMirrors at expanded
  split at expanded
  · cases expanded
  next distinct =>
  split at expanded
  · cases expanded
  next apart =>
  obtain ⟨_, checked, same⟩ := bind_eq_ok.mp expanded
  have each (route : Route) (member : route ∈ routes) :
      checkMirrored mirrors route = .ok () := forM_eq_ok.mp checked route member
  refine
    { targets := firstRepeated_eq_none.mp distinct
      original := fun mirror member channel inSource isTarget => ?_
      whole := fun route member mirror known channel inOutput inSource => ?_
      free := fun route member channel inOutput isTarget => ?_
      result := (pure_eq_ok.mp same).symm }
  · have no := List.find?_eq_none.mp apart mirror member
    exact no (List.any_eq_true.mpr ⟨channel, inSource, List.contains_iff_mem.mpr isTarget⟩)
  · have own := each route member
    unfold checkMirrored at own
    split at own
    · cases own
    next whole =>
    by_contra partly
    have no := List.find?_eq_none.mp whole mirror known
    refine no (Bool.and_eq_true_iff.mpr ⟨?_, by simpa using partly⟩)
    exact List.any_eq_true.mpr ⟨channel, inOutput, List.contains_iff_mem.mpr inSource⟩
  · have own := each route member
    unfold checkMirrored at own
    split at own
    · cases own
    split at own
    · cases own
    next free =>
    exact List.find?_eq_none.mp free channel inOutput (List.contains_iff_mem.mpr isTarget)

/-- The copies of a mirror are those of the routes of its source. -/
theorem mem_mirrorCopies {routes : List Route} {mirror : Mirror} {copy : Route} :
    copy ∈ mirrorCopies routes mirror ↔
      ∃ route ∈ routes, ∃ own : route.output = mirror.source, copy = mirrorCopy mirror route own := by
  unfold mirrorCopies
  rw [List.mem_filterMap]
  constructor
  · rintro ⟨route, known, chosen⟩
    split at chosen
    · next own => exact ⟨route, known, own, (Option.some.inj chosen).symm⟩
    · cases chosen
  · rintro ⟨route, known, own, rfl⟩
    exact ⟨route, known, by rw [dif_pos own]⟩

theorem mem_mirroredOutputs {mirrors : List Mirror} {channel : ℕ} :
    channel ∈ mirroredOutputs mirrors ↔ ∃ mirror ∈ mirrors, channel ∈ mirror.target.toList :=
  List.mem_flatMap

/-! ### The base's diagonal -/

/-- A route of the base: a playback channel or pair on its own outputs, where no route of the file
sets a cell of it. -/
inductive Diagonal (routes : List Route) (left : ℕ) : Route → Prop
  | mono (channel : ℕ) (own : channel = left ∨ channel = left + 1)
      (playback : declaredLink routes .playback left = some false)
      (output : declaredLink routes .output left ≠ some true)
      (free : (channel, channel) ∉ takenCells routes) : Diagonal routes left (monoDiagonal channel)
  | pair (playback : declaredLink routes .playback left ≠ some false)
      (free : ∀ out ∈ [left, left + 1], ∀ source ∈ [left, left + 1],
        (out, source) ∉ takenCells routes) :
      Diagonal routes left (pairDiagonal left (declaredLink routes .output left ≠ some false))

theorem diagonal_mem {routes added : List Route} {left : ℕ}
    (made : diagonal left (declaredLink routes .playback left) (declaredLink routes .output left)
      (takenCells routes) = .ok added) {route : Route} (member : route ∈ added) :
    Diagonal routes left route := by
  unfold diagonal at made
  split at made
  · cases made
  next shapes =>
  split at made
  · next playback =>
      cases made
      obtain ⟨channel, known, rfl⟩ := List.mem_map.mp member
      obtain ⟨own, free⟩ := List.mem_filter.mp known
      refine .mono channel (by simpa using own) playback (fun output => ?_) (by simpa using free)
      exact shapes ⟨playback, output⟩
  next playback =>
  split at made
  · cases made
    cases member
  next free =>
  cases made
  rw [List.mem_singleton] at member
  subst member
  refine .pair playback fun out outMember source sourceMember taken => free ?_
  rw [List.any_eq_true]
  refine ⟨(out, source), ?_, List.contains_iff_mem.mpr taken⟩
  simp only [List.mem_cons, List.not_mem_nil, or_false] at outMember sourceMember
  rcases outMember with rfl | rfl <;> rcases sourceMember with rfl | rfl <;> simp

/-- Where a base's route comes from: the diagonal of a pair whose outputs no mirror writes. -/
theorem mem_baseRoutes {base : Base} {routes : List Route} {settings : List ChannelSetting}
    {mirrors : List Mirror} {device : Device} {added : List Route}
    (made : baseRoutes base routes settings mirrors device = .ok added) {route : Route}
    (member : route ∈ added) :
    base.straight ∧ ∃ left ∈ oddChannels device .output, left ∈ oddChannels device .playback
      ∧ Diagonal routes left route
      ∧ left ∉ mirroredOutputs mirrors ∧ left + 1 ∉ mirroredOutputs mirrors
      ∧ (route.output.isPair = true →
          left ∉ mirroredAlone mirrors ∧ left + 1 ∉ mirroredAlone mirrors)
      ∧ (route.output.isPair = false → left ∉ mirroredPairs mirrors) := by
  unfold baseRoutes at made
  split at made
  · cases made
    cases member
  next straight =>
  dsimp only at made
  obtain ⟨diagonals, read, same⟩ := bind_eq_ok.mp made
  obtain rfl := pure_eq_ok.mp same
  obtain ⟨own, known, inOwn⟩ := List.mem_flatten.mp member
  obtain ⟨left, chosen, each⟩ := mem_of_mapM read known
  obtain ⟨odd, both⟩ := List.mem_filter.mp chosen
  have playback : left ∈ oddChannels device .playback :=
    List.contains_iff_mem.mp (Bool.and_eq_true_iff.mp both).1
  unfold baseRoutesOf at each
  obtain ⟨list, diag, each⟩ := bind_eq_ok.mp each
  dsimp only at each
  split at each
  · obtain ⟨_, refused, -⟩ := bind_eq_ok.mp each
    exact absurd refused throw_ne_ok
  next copied =>
  have same : list = own := by
    split at each
    · exact absurd each throw_ne_ok
    · exact pure_eq_ok.mp each
  subst same
  have some : list.isEmpty = false := by
    rw [List.isEmpty_eq_false_iff]
    exact List.ne_nil_of_mem inOwn
  have copies : mirrorsCopy left list mirrors = true := by simpa using copied
  unfold mirrorsCopy at copies
  simp only [some, Bool.false_or, Bool.and_eq_true, Bool.not_eq_true', List.any_cons, List.any_nil,
    Bool.or_false, Bool.or_eq_false_iff, Bool.and_eq_false_iff, List.contains_eq_mem,
    decide_eq_false_iff_not] at copies
  obtain ⟨⟨targets, alone⟩, paired⟩ := copies
  refine ⟨by simpa using straight, left, odd, playback, diagonal_mem diag inOwn, targets.1,
    targets.2, fun isPair => ?_, fun isMono => ?_⟩
  · rcases alone with none | free
    · have := List.any_eq_false.mp none route inOwn
      simp [isPair] at this
    · exact free
  · rcases paired with none | free
    · have := List.any_eq_false.mp none route inOwn
      simp [isMono] at this
    · exact free

/-! ### Mirrors of a device -/

/-- A mirror the parser accepts: one channel, or one hardware pair onto another. -/
structure MirrorShape (device : Device) (mirror : Mirror) : Prop where
  target : ∀ channel ∈ mirror.target.toList, channel ∈ device.channelsFor "output"
  source : ∀ channel ∈ mirror.source.toList, channel ∈ device.channelsFor "output"
  targetPair : mirror.target.isPair = true → mirror.target.adjacent = true
  sourcePair : mirror.source.isPair = true → mirror.source.adjacent = true
  apart : ∀ channel ∈ mirror.source.toList, channel ∉ mirror.target.toList

theorem outputOf_eq_some {device : Device} {channel : ℤ} {out : ℕ}
    (found : outputOf device channel = some out) :
    out ∈ device.channelsFor "output" ∧ (out : ℤ) = channel :=
  ⟨List.mem_of_find?_eq_some found, by simpa using List.find?_some found⟩

theorem ParsedMirror.shape {device : Device} {mirror : Mirror}
    (parsed : ParsedMirror device mirror) : MirrorShape device mirror := by
  obtain ⟨raw, sectionName, channel, read⟩ := parsed
  unfold parseMirror at read
  split at read
  · cases read
  · split at read
    · next target source targetFound sourceFound =>
        have inTarget := (outputOf_eq_some targetFound).1
        have inSource := (outputOf_eq_some sourceFound).1
        split at read
        · cases read
        next apart =>
        cases read
        refine ⟨?_, ?_, ?_, ?_, ?_⟩ <;> simp [Channels.toList, Channels.isPair, *]
    · cases read
  · split at read
    · cases read
    next hardware =>
    split at read
    · cases read
    next odd =>
    split at read
    · next target targetRight source sourceRight foundT foundTR foundS foundSR =>
        obtain ⟨inT, isT⟩ := outputOf_eq_some foundT
        obtain ⟨inTR, isTR⟩ := outputOf_eq_some foundTR
        obtain ⟨inS, isS⟩ := outputOf_eq_some foundS
        obtain ⟨inSR, isSR⟩ := outputOf_eq_some foundSR
        split at read
        · cases read
        next apart =>
        cases read
        refine ⟨?_, ?_, fun _ => ?_, fun _ => ?_, ?_⟩
        · simp [Channels.toList, inT, inTR]
        · simp [Channels.toList, inS, inSR]
        · have next : targetRight = target + 1 := by omega
          have oddT : target % 2 = 1 := by omega
          simp [Channels.adjacent, next, oddT]
        · have next : sourceRight = source + 1 := by omega
          have oddS : source % 2 = 1 := by omega
          simp [Channels.adjacent, next, oddS]
        · simp only [Channels.toList, List.mem_cons, List.not_mem_nil, or_false]
          rintro own (rfl | rfl) <;> omega
    · cases read
  · cases read

/-! ### The routes of a configuration -/

namespace Loaded

variable {config : Config} {declared added : List Route} {mirrors : List Mirror}

theorem expansion (loaded : Loaded config declared added mirrors) :
    Expanded (declared ++ added) mirrors config.routes :=
  expandMirrors_expanded loaded.expanded

/-- A route is the file's, the base's, or a mirror's copy of one of these. -/
theorem mem_routes (loaded : Loaded config declared added mirrors) {route : Route} :
    route ∈ config.routes ↔ route ∈ declared ++ added
      ∨ ∃ mirror ∈ mirrors, ∃ original ∈ declared ++ added,
        ∃ own : original.output = mirror.source, route = mirrorCopy mirror original own := by
  rw [loaded.expansion.result, List.mem_append]
  simp only [List.mem_flatMap, mem_mirrorCopies]

/-- A route of the base is a diagonal of its device. -/
theorem mem_added (loaded : Loaded config declared added mirrors) {route : Route}
    (member : route ∈ added) : ∃ device, deviceForName config.deviceName = some device
      ∧ config.base.straight ∧ ∃ left ∈ oddChannels device .output,
        left ∈ oddChannels device .playback ∧ Diagonal declared left route
        ∧ left ∉ mirroredOutputs mirrors ∧ left + 1 ∉ mirroredOutputs mirrors
        ∧ (route.output.isPair = true →
            left ∉ mirroredAlone mirrors ∧ left + 1 ∉ mirroredAlone mirrors)
        ∧ (route.output.isPair = false → left ∉ mirroredPairs mirrors) := by
  cases modelled : deviceForName config.deviceName with
  | none =>
      rw [loaded.unmodelled modelled] at member
      cases member
  | some device => exact ⟨device, rfl, mem_baseRoutes (loaded.based device modelled) member⟩

theorem declared_base (loaded : Loaded config declared added mirrors) {route : Route}
    (member : route ∈ declared) : route.base = false :=
  (loaded.parsed route member).declared

theorem added_base (loaded : Loaded config declared added mirrors) {route : Route}
    (member : route ∈ added) : route.base = true := by
  obtain ⟨device, -, -, left, -, -, diagonal, -⟩ := loaded.mem_added member
  cases diagonal <;> rfl

/-- The source channels of the routes count from one. -/
theorem source_positive (loaded : Loaded config declared added mirrors) {route : Route}
    (member : route ∈ config.routes) : ∀ channel ∈ route.source.toList, 1 ≤ channel := by
  have layers : ∀ original ∈ declared ++ added, ∀ channel ∈ original.source.toList, 1 ≤ channel := by
    intro original known channel inSource
    rcases List.mem_append.mp known with file | base
    · exact ((loaded.parsed original file).source channel inSource).1
    · obtain ⟨device, -, -, left, odd, -, diagonal, -⟩ := loaded.mem_added base
      have oddLeft := (mem_oddChannels.mp odd).2.1
      cases diagonal with
      | mono own isOwn =>
          have same : channel = own := by simpa [monoDiagonal, Channels.toList] using inSource
          omega
      | pair =>
          have same : channel = left ∨ channel = left + 1 := by
            simpa [pairDiagonal, Channels.toList] using inSource
          omega
  rcases loaded.mem_routes.mp member with original | ⟨mirror, -, original, known, own, rfl⟩
  · exact layers route original
  · exact layers original known

/-- A mirror of an accepted configuration is one channel or one hardware pair onto another. -/
theorem mirror_shape (loaded : Loaded config declared added mirrors) {mirror : Mirror}
    (member : mirror ∈ mirrors) : ∃ device, deviceForName config.deviceName = some device
      ∧ MirrorShape device mirror := by
  obtain ⟨device, modelled, parsed⟩ := loaded.mirrored mirror member
  exact ⟨device, modelled, parsed.shape⟩

end Loaded

end OscmixDesk
