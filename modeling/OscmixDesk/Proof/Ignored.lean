/-
**What ignored sections contribute.**

The `mirror` of an output section is read even where the section is ignored, so the routes of its source are copied.
Without its ignored sections a file loads as the same desk exactly when those mirrors meet nothing of the desk.

* `baseRoutes_without` — the routes of a base, beside mirrors and without them;
* `finish_unmirrored` — a desk with mirrors against the same desk without them;
* `ignoredContribute` — the loads of a file, strict and tolerant, and of the file without its ignored sections.
-/

import OscmixDesk.Proof.Tolerant

namespace OscmixDesk

open Checks

/-! ### What a file declares -/

/-- The route that a section declares. -/
def IniSection.route? (ini : IniSection) : Option Route :=
  if "route:".toList.isPrefixOf ini.name.toList then (parseRoute ini).toOption else none

/-- The base that a `[desk]` section names, or the one so far. -/
def IniSection.baseOr (name : String) (ini : IniSection) : String :=
  ((ini.get? "base").map fun raw => String.ofList (Text.strip raw.toList)).getD name

namespace IniFile

/-- The routes that a file declares. -/
def declared (file : IniFile) : List Route :=
  (orderedSections file).filterMap IniSection.route?

/-- The base that a file names. -/
def baseName (file : IniFile) : String :=
  ((orderedSections file).filter (·.name = "desk")).foldl IniSection.baseOr "keep"

/-- The mirrors that the ignored sections state. -/
def ignoredMirrors (file : IniFile) (onto : Config) (overrides : Overrides) : List Mirror :=
  (file.ignored onto overrides).filterMap fun ini =>
    (sectionMirror (file.device onto overrides) ini).toOption.join

end IniFile

/-- A mirror that nothing of the desk meets: no declared route is on its source, and the routes of the base can be
declared without it and are neither on its source nor on its target. -/
def Mirror.Idle (mirror : Mirror) (device : Option Device) (routes : List Route) (base : Base) : Prop :=
  (∀ route ∈ routes, route.output ≠ mirror.source) ∧
    ∀ known, device = some known → ∃ added, baseRoutes base routes [] [] known = .ok added ∧
      ∀ route ∈ added, route.output ≠ mirror.source ∧ ∀ out ∈ route.output.toList, out ∉ mirror.target.toList

/-- Every mirror that an ignored section of a file states is idle. -/
def IniFile.MirrorsIdle (file : IniFile) (onto : Config) (overrides : Overrides) : Prop :=
  ∀ mirror ∈ file.ignoredMirrors onto overrides, ∀ base, checkBase file.baseName = .ok base →
    mirror.Idle (file.device onto overrides) file.declared base

section Loads

variable {file : IniFile} {onto : Config} {overrides : Overrides} {profile : Bool}

theorem parseDesk_base {ini : IniSection} {draft next : Draft} (parsed : parseDesk profile ini draft = .ok next) :
    next.base = ini.baseOr draft.base := by
  unfold parseDesk at parsed
  obtain ⟨-, -, parsed⟩ := bind_eq_ok.mp parsed
  dsimp only at parsed
  split at parsed
  · split at parsed
    · obtain ⟨_, refused, -⟩ := bind_eq_ok.mp parsed
      exact absurd refused throw_ne_ok
    · obtain ⟨_, -, parsed⟩ := bind_eq_ok.mp parsed
      obtain ⟨_, -, parsed⟩ := bind_eq_ok.mp parsed
      obtain rfl := pure_eq_ok.mp parsed
      rfl
  · obtain ⟨_, -, parsed⟩ := bind_eq_ok.mp parsed
    obtain ⟨_, -, parsed⟩ := bind_eq_ok.mp parsed
    obtain rfl := pure_eq_ok.mp parsed
    rfl

theorem parseOsc_base {ini : IniSection} {draft next : Draft} (parsed : parseOsc ini draft = .ok next) :
    next.base = draft.base := by
  unfold parseOsc at parsed
  obtain ⟨-, -, parsed⟩ := bind_eq_ok.mp parsed
  obtain ⟨_, -, parsed⟩ := bind_eq_ok.mp parsed
  obtain ⟨_, -, parsed⟩ := bind_eq_ok.mp parsed
  obtain ⟨_, -, parsed⟩ := bind_eq_ok.mp parsed
  obtain ⟨_, -, parsed⟩ := bind_eq_ok.mp parsed
  obtain rfl := pure_eq_ok.mp parsed
  rfl

/-- What one section adds to the routes and the base. -/
theorem dispatchSection_desk {strict : Bool} {draft next : Draft} {ini : IniSection}
    (parsed : dispatchSection strict profile draft ini = .ok next) :
    next.routes = draft.routes ++ ini.route?.toList ∧
      next.base = if ini.name = "desk" then ini.baseOr draft.base else draft.base := by
  unfold dispatchSection at parsed
  unfold IniSection.route?
  split at parsed
  · next own =>
    have name : ¬"route:".toList.isPrefixOf ini.name.toList = true := by
      rw [own]
      decide
    rw [if_neg name, if_neg (by rw [own]; decide)]
    exact ⟨by rw [(parseDevice_same parsed).1.routes]; simp, (parseDevice_used parsed).2.2.2⟩
  split at parsed
  · next own =>
    have name : ¬"route:".toList.isPrefixOf ini.name.toList = true := by
      rw [own]
      decide
    rw [if_neg name, if_neg (by rw [own]; decide)]
    exact ⟨by rw [(parseOsc_same parsed).1.routes]; simp, parseOsc_base parsed⟩
  split at parsed
  · next own =>
    have name : ¬"route:".toList.isPrefixOf ini.name.toList = true := by
      rw [own]
      decide
    rw [if_neg name, if_pos own]
    exact ⟨by rw [(parseDesk_same parsed).1.routes]; simp, parseDesk_base parsed⟩
  next other =>
  rw [if_neg other]
  split at parsed
  · next isRoute =>
    rw [if_pos isRoute]
    obtain ⟨route, read, parsed⟩ := bind_eq_ok.mp parsed
    obtain rfl := pure_eq_ok.mp parsed
    rw [read]
    exact ⟨rfl, rfl⟩
  next notRoute =>
  rw [if_neg notRoute, Option.toList_none, List.append_nil]
  split at parsed
  · cases parsed
    exact ⟨rfl, rfl⟩
  split at parsed
  · unfold parsePin at parsed
    obtain ⟨policies, -, parsed⟩ := bind_eq_ok.mp parsed
    obtain rfl := pure_eq_ok.mp parsed
    exact ⟨rfl, rfl⟩
  split at parsed
  · cases parsed
    exact ⟨rfl, rfl⟩
  split at parsed
  · cases parsed
    exact ⟨rfl, rfl⟩
  · obtain ⟨-, -, parsed⟩ := bind_eq_ok.mp parsed
    obtain rfl := pure_eq_ok.mp parsed
    exact ⟨rfl, rfl⟩

theorem foldlM_desk {strict : Bool} {sections : List IniSection} {draft next : Draft}
    (read : sections.foldlM (dispatchSection strict profile) draft = .ok next) :
    next.routes = draft.routes ++ sections.filterMap IniSection.route? ∧
      next.base = (sections.filter (·.name = "desk")).foldl IniSection.baseOr draft.base := by
  induction sections generalizing draft with
  | nil =>
      cases read
      exact ⟨by simp, rfl⟩
  | cons ini sections ih =>
      rw [List.foldlM_cons, bind_eq_ok] at read
      obtain ⟨middle, first, rest⟩ := read
      obtain ⟨routes, base⟩ := dispatchSection_desk first
      obtain ⟨others, last⟩ := ih rest
      refine ⟨?_, ?_⟩
      · rw [others, routes, List.append_assoc, List.filterMap_cons]
        cases ini.route? <;> rfl
      · rw [last, base]
        by_cases own : ini.name = "desk"
        · rw [List.filter_cons_of_pos (by simp [own]), List.foldl_cons, if_pos own]
        · rw [List.filter_cons_of_neg (by simp [own]), if_neg own]

/-- Reading a file leaves the routes it declares and the base it names. -/
theorem dispatch_desk {strict : Bool} {next : Draft}
    (parsed : dispatch strict profile (Draft.start onto overrides) file = .ok next) :
    next.routes = file.declared ∧ next.base = file.baseName :=
  foldlM_desk parsed

end Loads

/-! ### Mirrors of ignored sections -/

section Copies

variable {routes added : List Route} {settings : List ChannelSetting} {mirrors : List Mirror} {left : ℕ}

/-- The diagonal of a pair, and what links it keeps the settings alike. -/
theorem baseRoutesOf_made (made : baseRoutesOf routes settings mirrors left = .ok added) :
    diagonal left (declaredLink routes .playback left) (declaredLink routes .output left) (takenCells routes) =
        .ok added ∧
      ∀ owned ∈ linkedByBase routes added mirrors left, mergesApart settings owned.1 owned.2 = false := by
  unfold baseRoutesOf at made
  obtain ⟨found, diag, made⟩ := bind_eq_ok.mp made
  dsimp only at made
  split at made
  · obtain ⟨_, refused, -⟩ := bind_eq_ok.mp made
    exact absurd refused throw_ne_ok
  split at made
  · exact absurd made throw_ne_ok
  · next none =>
    obtain rfl := pure_eq_ok.mp made
    refine ⟨diag, fun owned member => ?_⟩
    simpa using List.find?_eq_none.mp none owned member

/-- Without mirrors a diagonal is only refused where it merges settings that are apart. -/
theorem baseRoutesOf_alone
    (diag : diagonal left (declaredLink routes .playback left) (declaredLink routes .output left)
      (takenCells routes) = .ok added)
    (alike : ∀ owned ∈ ownedLinks routes added, mergesApart settings owned.1 owned.2 = false) :
    baseRoutesOf routes settings [] left = .ok added := by
  have links : linkedByBase routes added [] left = ownedLinks routes added := by
    simp [linkedByBase]
  have copied : mirrorsCopy left added [] = true := by
    simp [mirrorsCopy, mirroredOutputs, mirroredAlone, mirroredPairs]
  have none : (ownedLinks routes added).find? (fun owned => mergesApart settings owned.1 owned.2) = none := by
    rw [List.find?_eq_none]
    intro owned member
    rw [alike owned member]
    exact Bool.false_ne_true
  unfold baseRoutesOf
  rw [diag]
  show (if !mirrorsCopy left added [] then _ else _) = _
  rw [copied, links, none]
  rfl

/-- A diagonal beside mirrors is one without them. -/
theorem baseRoutesOf_without (made : baseRoutesOf routes settings mirrors left = .ok added) :
    baseRoutesOf routes settings [] left = .ok added := by
  obtain ⟨diag, alike⟩ := baseRoutesOf_made made
  refine baseRoutesOf_alone diag fun owned member => alike owned ?_
  unfold linkedByBase
  dsimp only
  split
  · exact List.mem_append_left _ member
  · exact member

/-- The pairs that a base plays on their outputs, where no mirror takes a whole pair. -/
def straightPairs (device : Device) : List ℕ :=
  (oddChannels device .output).filter (oddChannels device .playback).contains

/-- Whether mirrors write both outputs of a pair. -/
def takesPair (mirrors : List Mirror) (left : ℕ) : Bool :=
  [left, left + 1].all (mirroredOutputs mirrors).contains

theorem baseRoutes_eq {base : Base} {device : Device} (straight : base.straight = true) :
    baseRoutes base routes settings mirrors device =
      (((straightPairs device).filter (!takesPair mirrors ·)).mapM (baseRoutesOf routes settings mirrors)).map
        List.flatten := by
  have pairs : (oddChannels device .output).filter (fun left => (oddChannels device .playback).contains left
      && !([left, left + 1].all (mirroredOutputs mirrors).contains)) =
      (straightPairs device).filter (!takesPair mirrors ·) := by
    unfold straightPairs takesPair
    rw [List.filter_filter]
    apply List.filter_congr
    intro left _
    exact Bool.and_comm _ _
  unfold baseRoutes
  rw [straight]
  show (do return (← List.mapM _ _).flatten) = _
  rw [pairs]
  cases ((straightPairs device).filter (!takesPair mirrors ·)).mapM (baseRoutesOf routes settings mirrors) <;> rfl

theorem straightPairs_alone (device : Device) :
    (straightPairs device).filter (!takesPair [] ·) = straightPairs device := by
  rw [List.filter_eq_self]
  intro left _
  simp [takesPair, mirroredOutputs]

/-- The routes of a base beside mirrors are those without them, where it has none on a pair that the mirrors
take. -/
theorem baseRoutes_without {base : Base} {device : Device}
    (made : baseRoutes base routes settings mirrors device = .ok added)
    (empty : base.straight = true → ∀ left ∈ straightPairs device, takesPair mirrors left = true →
      diagonal left (declaredLink routes .playback left) (declaredLink routes .output left)
        (takenCells routes) = .ok []) :
    baseRoutes base routes settings [] device = .ok added := by
  cases straight : base.straight with
  | false =>
      unfold baseRoutes at made ⊢
      simp only [straight, Bool.not_false, if_true] at made ⊢
      exact made
  | true =>
      rw [baseRoutes_eq straight] at made
      obtain ⟨diagonals, each, same⟩ := map_eq_ok.mp made
      have alone : ((straightPairs device).filter (!takesPair mirrors ·)).mapM (baseRoutesOf routes settings []) =
          .ok diagonals :=
        mapM_eq_ok.mpr ((mapM_eq_ok.mp each).imp fun left list made => baseRoutesOf_without made)
      have filtered := @mapM_filter _ _ _ _ (straightPairs device) (baseRoutesOf routes settings [])
        (!takesPair mirrors ·) List.flatten
        (fun result results others same => by rw [List.flatten_cons, List.flatten_cons, same])
        (fun left member taken => by
          have nothing := empty straight left member (by simpa using taken)
          exact ⟨[], baseRoutesOf_alone nothing (by simp [ownedLinks, allRequirements]), fun results => rfl⟩)
      rw [baseRoutes_eq straight, straightPairs_alone, ← filtered, alone]
      exact congrArg Except.ok same

/-- The routes of a base do not depend on the settings, where it has any. -/
theorem baseRoutes_unset {base : Base} {device : Device}
    (made : baseRoutes base routes settings [] device = .ok added) :
    baseRoutes base routes [] [] device = .ok added := by
  cases straight : base.straight with
  | false =>
      unfold baseRoutes at made ⊢
      simp only [straight, Bool.not_false, if_true] at made ⊢
      exact made
  | true =>
      rw [baseRoutes_eq straight] at made ⊢
      obtain ⟨diagonals, each, same⟩ := map_eq_ok.mp made
      have alone : ((straightPairs device).filter (!takesPair [] ·)).mapM (baseRoutesOf routes [] []) =
          .ok diagonals :=
        mapM_eq_ok.mpr ((mapM_eq_ok.mp each).imp fun left list made =>
          baseRoutesOf_alone (baseRoutesOf_made made).1 fun owned _ => rfl)
      rw [alone]
      exact congrArg Except.ok same

/-- The diagonals of the pairs are among the routes of a base. -/
theorem diagonal_of_baseRoutes {base : Base} {device : Device} (straight : base.straight = true)
    (made : baseRoutes base routes settings [] device = .ok added) (member : left ∈ straightPairs device) :
    ∃ diagonals, diagonal left (declaredLink routes .playback left) (declaredLink routes .output left)
      (takenCells routes) = .ok diagonals ∧ ∀ route ∈ diagonals, route ∈ added := by
  rw [baseRoutes_eq straight, straightPairs_alone] at made
  obtain ⟨all, each, rfl⟩ := map_eq_ok.mp made
  obtain ⟨diagonals, inside, own⟩ := exists_right (mapM_eq_ok.mp each) member
  exact ⟨diagonals, (baseRoutesOf_made own).1, fun route known => List.mem_flatten.mpr ⟨_, inside, known⟩⟩

end Copies

section Stated

variable {draft next : Draft} {known : Device} {config : Config} {ini : IniSection} {mirrors : List Mirror}

/-- A mirror is stated by an output section of a modelled device. -/
theorem sectionMirror_some {device : Option Device} (stated : sectionMirror device ini ≠ .ok none) :
    channelFamily ini = some .output ∧ device.isSome = true := by
  unfold sectionMirror at stated
  split at stated
  · exact ⟨by assumption, rfl⟩
  · exact ⟨by assumption, rfl⟩
  · exact absurd rfl stated

/-- What a collected section gives as its mirror. -/
theorem collectSection_mirror {device : Option Device} {strict : Bool}
    {result : List ChannelSetting × Option Mirror} (channel : (channelFamily ini).isSome = true)
    (parsed : collectSection device strict ini = .ok result) : sectionMirror device ini = .ok result.2 := by
  obtain ⟨family, found⟩ := Option.isSome_iff_exists.mp channel
  unfold collectSection at parsed
  rw [found] at parsed
  obtain ⟨settings, -, rest⟩ := bind_eq_ok.mp parsed
  obtain ⟨mirror, own, same⟩ := bind_eq_ok.mp rest
  obtain rfl := pure_eq_ok.mp same
  exact own

/-- What a collection read of each channel section, and what it leaves alone. -/
theorem parseCollected_each {strict : Bool} (parsed : parseCollected strict draft = .ok next) :
    (∀ ini ∈ draft.pending, ∃ result, collectSection draft.device strict ini = .ok result) ∧
      (∀ mirror ∈ next.mirrors, ∃ ini ∈ draft.pending, ∃ settings,
        collectSection draft.device strict ini = .ok (settings, some mirror)) ∧
      next.routes = draft.routes ∧ next.base = draft.base ∧ next.device = draft.device := by
  unfold parseCollected at parsed
  obtain ⟨globals, -, parsed⟩ := bind_eq_ok.mp parsed
  obtain ⟨nested, -, parsed⟩ := bind_eq_ok.mp parsed
  obtain ⟨sections, each, parsed⟩ := bind_eq_ok.mp parsed
  obtain rfl := pure_eq_ok.mp parsed
  refine ⟨fun ini member => ?_, fun mirror member => ?_, rfl, rfl, rfl⟩
  · obtain ⟨result, -, own⟩ := exists_right (mapM_eq_ok.mp each) member
    exact ⟨result, own⟩
  · obtain ⟨⟨settings, found⟩, known, rfl⟩ := List.mem_filterMap.mp member
    obtain ⟨ini, inside, own⟩ := mem_of_mapM each known
    exact ⟨ini, inside, settings, own⟩

/-- A channel section that is read has a number. -/
theorem collectSection_number {device : Option Device} {strict : Bool} {family : Family}
    {result : List ChannelSetting × Option Mirror} (found : channelFamily ini = some family)
    (parsed : collectSection device strict ini = .ok result) :
    (Text.readInt (Text.strip ini.tail)).isSome = true := by
  unfold collectSection at parsed
  rw [found] at parsed
  obtain ⟨settings, own, -⟩ := bind_eq_ok.mp parsed
  unfold parseChannelSection at own
  split at own
  · cases own
  · next channel numbered =>
    rw [numbered]
    rfl

/-- Where only ignored sections state mirrors, the collection without them has none. -/
theorem parseCollected_unmirrored {device : Option Device} (used : draft.device = device)
    (channels : ∀ ini ∈ draft.pending, (channelFamily ini).isSome = true)
    (parsed : parseCollected false draft = .ok next)
    (silent : ∀ ini ∈ draft.pending, isIgnored device ini = false → sectionMirror device ini = .ok none) :
    parseCollected false (draft.without device) = .ok { next.without device with mirrors := [] } := by
  unfold parseCollected at parsed
  rw [used] at parsed
  obtain ⟨globals, first, parsed⟩ := bind_eq_ok.mp parsed
  obtain ⟨nested, second, parsed⟩ := bind_eq_ok.mp parsed
  obtain ⟨sections, third, parsed⟩ := bind_eq_ok.mp parsed
  obtain rfl := pure_eq_ok.mp parsed
  have filtered := @mapM_filter _ _ _ _ draft.pending (collectSection device false) (!isIgnored device ·)
    (fun results => (results.map Prod.fst).flatten)
    (fun result results others same => by
      rw [List.map_cons, List.map_cons, List.flatten_cons, List.flatten_cons, same])
    (fun ini member kept => by
      have unsupported := isUnsupported_of_collected (channels ini member) (by simpa using kept)
      obtain ⟨result, inside, own⟩ := exists_right (mapM_eq_ok.mp third) member
      refine ⟨result, own, fun results => ?_⟩
      rw [collectSection_unsupported unsupported] at own
      obtain ⟨_, -, own⟩ := bind_eq_ok.mp own
      obtain ⟨mirror, -, own⟩ := bind_eq_ok.mp own
      obtain rfl := pure_eq_ok.mp own
      rfl)
  rw [third] at filtered
  obtain ⟨others, alone, settings⟩ := map_eq_ok.mp filtered
  have none : others.filterMap Prod.snd = [] := by
    rw [List.filterMap_eq_nil_iff]
    intro result member
    obtain ⟨ini, inside, own⟩ := mem_of_mapM alone member
    obtain ⟨pending, kept⟩ := List.mem_filter.mp inside
    have mirror := collectSection_mirror (channels ini pending) own
    rw [silent ini pending (by simpa using kept)] at mirror
    exact (Except.ok.inj mirror).symm
  have same : (draft.without device).device = device := used
  unfold parseCollected
  rw [same]
  show ((draft.pendingGlobals.mapM (parseGlobalSection device)) >>= _) = _
  rw [first]
  show ((draft.pendingNested.mapM (parseNestedSection device)) >>= _) = _
  rw [second]
  show (((draft.pending.filter (!isIgnored device ·)).mapM (collectSection device false)) >>= _) = _
  rw [alone]
  show Except.ok _ = Except.ok _
  rw [settings, none]
  rfl

/-- A diagonal has an output of its pair. -/
theorem Diagonal.outputs {routes : List Route} {left : ℕ} {route : Route} (diagonal : Diagonal routes left route) :
    route.mirrorOf = none ∧ ∃ out ∈ route.output.toList, out = left ∨ out = left + 1 := by
  cases diagonal with
  | mono channel own => exact ⟨rfl, channel, List.mem_singleton_self _, own⟩
  | pair => exact ⟨rfl, left, List.mem_cons_self, .inl rfl⟩

/-- Without mirrors there is nothing to copy. -/
theorem expandMirrors_nil (routes : List Route) : expandMirrors routes [] = .ok routes := by
  have checked : routes.forM (checkMirrored []) = .ok ⟨⟩ := by
    rw [forM_eq_ok]
    intro route _
    have none : route.output.toList.find? (mirroredOutputs []).contains = none := by
      rw [List.find?_eq_none]
      intro channel _
      exact Bool.false_ne_true
    unfold checkMirrored
    rw [none]
    rfl
  show (routes.forM (checkMirrored []) >>= _) = _
  rw [checked]
  exact congrArg Except.ok (List.append_nil routes)

/-- A finished desk with mirrors is the one without them exactly when the mirrors are idle. -/
theorem finish_unmirrored (modelled : draft.device = some known) (finished : draft.finish = .ok config) :
    { draft with mirrors := [] }.finish = .ok config ↔ ∀ mirror ∈ draft.mirrors, ∀ base,
      checkBase draft.base = .ok base → mirror.Idle draft.device draft.routes base := by
  obtain ⟨base, added, routes, named, found, expanded, checked⟩ := finish_eq_ok.mp finished
  have facts := expandMirrors_expanded expanded
  have based : baseRoutes base draft.routes draft.channels draft.mirrors known = .ok added := by
    unfold addedRoutes at found
    rw [modelled] at found
    exact found
  have listed : config.routes = draft.routes ++ added
      ++ draft.mirrors.flatMap (mirrorCopies (draft.routes ++ added)) := by
    rw [checked_routes checked]
    exact facts.result
  constructor
  · intro alone mirror member base' named'
    rw [named] at named'
    cases named'
    obtain ⟨base', others, routes', named', found', expanded', checked'⟩ := finish_eq_ok.mp alone
    rw [show ({ draft with mirrors := [] } : Draft).base = draft.base from rfl, named] at named'
    cases named'
    have based' : baseRoutes base draft.routes draft.channels [] known = .ok others := by
      unfold addedRoutes at found'
      rw [show ({ draft with mirrors := [] } : Draft).device = draft.device from rfl, modelled] at found'
      exact found'
    have same : routes' = draft.routes ++ others := by
      have result := (expandMirrors_expanded expanded').result
      rw [result]
      exact List.append_nil _
    have equal := listed
    rw [checked_routes checked'] at equal
    dsimp only at equal
    rw [same, List.append_assoc, List.append_cancel_left_eq] at equal
    -- a route of the base is no copy, so there are none
    have copies : draft.mirrors.flatMap (mirrorCopies (draft.routes ++ added)) = [] := by
      rw [List.eq_nil_iff_forall_not_mem]
      intro copy inside
      have among : copy ∈ others := by
        rw [equal]
        exact List.mem_append_right _ inside
      obtain ⟨-, left, -, -, diagonal, -⟩ := mem_baseRoutes based' among
      obtain ⟨own, -, made⟩ := List.mem_flatMap.mp inside
      obtain ⟨route, -, _, rfl⟩ := mem_mirrorCopies.mp made
      cases diagonal.outputs.1
    rw [copies, List.append_nil] at equal
    subst equal
    have apart : ∀ route ∈ draft.routes ++ others, route.output ≠ mirror.source := by
      intro route inside own
      have copy : mirrorCopy mirror route own ∈ draft.mirrors.flatMap (mirrorCopies (draft.routes ++ others)) :=
        List.mem_flatMap.mpr ⟨mirror, member, mem_mirrorCopies.mpr ⟨route, inside, own, rfl⟩⟩
      rw [copies] at copy
      cases copy
    refine ⟨fun route inside => apart route (List.mem_append_left _ inside), ?_⟩
    intro known' modelled'
    rw [modelled] at modelled'
    cases modelled'
    refine ⟨others, baseRoutes_unset based', fun route inside => ⟨apart route (List.mem_append_right _ inside), ?_⟩⟩
    intro out own target
    exact facts.free route (List.mem_append_right _ inside) out own (mem_mirroredOutputs.mpr ⟨mirror, member, target⟩)
  · intro idle
    have apart : ∀ mirror ∈ draft.mirrors, ∀ route ∈ draft.routes, route.output ≠ mirror.source :=
      fun mirror member => (idle mirror member base named).1
    have empty : base.straight = true → ∀ left ∈ straightPairs known, takesPair draft.mirrors left = true →
        diagonal left (declaredLink draft.routes .playback left) (declaredLink draft.routes .output left)
          (takenCells draft.routes) = .ok [] := by
      intro straight left member taken
      simp only [takesPair, List.all_cons, List.all_nil, Bool.and_true, Bool.and_eq_true, List.contains_iff_mem]
        at taken
      have targets : ∀ out, out = left ∨ out = left + 1 → out ∈ mirroredOutputs draft.mirrors := by
        rintro out (rfl | rfl)
        · exact taken.1
        · exact taken.2
      obtain ⟨mirror, inside, -⟩ := mem_mirroredOutputs.mp taken.1
      obtain ⟨plain, without, -⟩ := (idle mirror inside base named).2 known modelled
      obtain ⟨diagonals, diag, among⟩ := diagonal_of_baseRoutes straight without member
      have none : diagonals = [] := by
        rw [List.eq_nil_iff_forall_not_mem]
        intro route inside
        obtain ⟨-, out, own, place⟩ := (diagonal_mem diag inside).outputs
        obtain ⟨other, held, target⟩ := mem_mirroredOutputs.mp (targets out place)
        obtain ⟨same, also, clear⟩ := (idle other held base named).2 known modelled
        rw [without] at also
        cases also
        exact (clear route (among route inside)).2 out own target
      rw [diag, none]
    have alone := baseRoutes_without based empty
    have copies : draft.mirrors.flatMap (mirrorCopies (draft.routes ++ added)) = [] := by
      rw [List.eq_nil_iff_forall_not_mem]
      intro copy inside
      obtain ⟨mirror, member, made⟩ := List.mem_flatMap.mp inside
      obtain ⟨route, held, own, -⟩ := mem_mirrorCopies.mp made
      obtain ⟨plain, without, clear⟩ := (idle mirror member base named).2 known modelled
      rw [baseRoutes_unset alone] at without
      cases without
      rcases List.mem_append.mp held with held | held
      · exact apart mirror member route held own
      · exact (clear route held).1 own
    have same : routes = draft.routes ++ added := by
      rw [facts.result, copies, List.append_nil]
    subst same
    refine finish_eq_ok.mpr ⟨base, added, draft.routes ++ added, named, ?_, ?_, checked⟩
    · unfold addedRoutes
      rw [show ({ draft with mirrors := [] } : Draft).device = draft.device from rfl, modelled]
      exact alone
    · exact expandMirrors_nil _

end Stated

section Loads

variable {file : IniFile} {onto : Config} {overrides : Overrides} {profile : Bool} {config : Config}

/-- Without its ignored sections a file loads as the same desk exactly when the mirrors that they state are idle. -/
theorem load_kept_iff (loaded : loadConfig (some file) onto overrides false profile = .ok config) :
    loadConfig (some (file.kept onto overrides)) onto overrides false profile = .ok config ↔
      file.MirrorsIdle onto overrides := by
  unfold IniFile.MirrorsIdle
  by_cases unstated : ∀ ini ∈ file.ignored onto overrides,
      sectionMirror (file.device onto overrides) ini = .ok none
  · rw [load_kept_of_unstated unstated]
    have none : file.ignoredMirrors onto overrides = [] := by
      unfold IniFile.ignoredMirrors
      rw [List.filterMap_eq_nil_iff]
      intro ini member
      rw [unstated ini member]
      rfl
    simp [loaded, none]
  · push Not at unstated
    obtain ⟨stating, ignored, stated⟩ := unstated
    obtain ⟨isOutput, modelled⟩ := sectionMirror_some stated
    obtain ⟨known, device⟩ := Option.isSome_iff_exists.mp modelled
    have unsupported := isUnsupported_of_collected (by simp [isOutput]) (List.mem_filter.mp ignored).2
    obtain ⟨-, rowless, -⟩ := (isUnsupported_of isOutput).mp unsupported
    rw [loadConfig_eq] at loaded
    obtain ⟨read, dispatched, loaded⟩ := bind_eq_ok.mp loaded
    obtain ⟨collected, parsed, finished⟩ := bind_eq_ok.mp loaded
    have dispatched := mapError_eq_ok.mp dispatched
    have parsed := mapError_eq_ok.mp parsed
    have used := dispatch_device dispatched
    have channels : ∀ ini ∈ read.pending, (channelFamily ini).isSome = true := fun ini member =>
      ((mem_pending dispatched).mp member).2
    obtain ⟨routes, base⟩ := dispatch_desk dispatched
    obtain ⟨each, mirrored, sameRoutes, sameBase, sameDevice⟩ := parseCollected_each parsed
    rw [used] at each mirrored
    have silent : ∀ ini ∈ read.pending, isIgnored (file.device onto overrides) ini = false →
        sectionMirror (file.device onto overrides) ini = .ok none := by
      intro ini member kept
      by_contra also
      obtain ⟨family, -⟩ := sectionMirror_some also
      obtain ⟨result, own⟩ := each ini member
      have unsupported := (isUnsupported_of family).mpr ⟨by decide, rowless, collectSection_number family own⟩
      rw [isIgnored, unsupported, Bool.or_true] at kept
      cases kept
    have same : ∀ mirror, mirror ∈ collected.mirrors ↔ mirror ∈ file.ignoredMirrors onto overrides := by
      intro mirror
      unfold IniFile.ignoredMirrors IniFile.ignored
      rw [List.mem_filterMap]
      constructor
      · intro member
        obtain ⟨ini, inside, settings, own⟩ := mirrored mirror member
        have stated := collectSection_mirror (channels ini inside) own
        refine ⟨ini, List.mem_filter.mpr ⟨((mem_pending dispatched).mp inside).1, ?_⟩, by rw [stated]; rfl⟩
        by_contra kept
        rw [silent ini inside (by simpa using kept)] at stated
        cases stated
      · rintro ⟨ini, member, own⟩
        obtain ⟨inside, -⟩ := List.mem_filter.mp member
        have stated : sectionMirror (file.device onto overrides) ini = .ok (some mirror) := by
          cases found : sectionMirror (file.device onto overrides) ini with
          | error problem =>
              rw [found] at own
              cases own
          | ok result =>
              rw [found] at own
              exact congrArg Except.ok own
        obtain ⟨family, -⟩ := sectionMirror_some (show _ ≠ _ by rw [stated]; simp)
        exact parseCollected_mirror parsed ((mem_pending dispatched).mpr ⟨inside, by simp [family]⟩)
          (by rw [used]; exact stated)
    have stateless := parseCollected_unmirrored used channels parsed silent
    have kept : loadConfig (some (file.kept onto overrides)) onto overrides false profile =
        { collected with mirrors := [] }.finish := by
      rw [loadConfig_eq, dispatch_kept, dispatched]
      show (orConfig (parseCollected false (read.without _)) >>= _) = _
      rw [stateless]
      exact @finish_without { collected with mirrors := [] } _
    rw [kept, finish_unmirrored (sameDevice.trans (used.trans device)) finished, sameDevice, used, sameRoutes, routes,
      sameBase, base]
    simp only [same]

end Loads

/-- **Ignored sections contribute nothing but their mirrors.** A strict load succeeds as the tolerant one does,
exactly when that ignores nothing. A tolerant load that succeeds gives what the file without its ignored sections
gives, exactly when the mirrors that those sections state are idle; where they state none the two loads are the
same, refusals included. -/
theorem ignoredContribute (file : IniFile) (onto : Config) (overrides : Overrides) (profile : Bool) :
    (∀ config, loadConfig (some file) onto overrides true profile = .ok config ↔
      loadConfig (some file) onto overrides false profile = .ok config ∧ file.ignored onto overrides = []) ∧
    (∀ config, loadConfig (some file) onto overrides false profile = .ok config →
      (loadConfig (some (file.kept onto overrides)) onto overrides false profile = .ok config ↔
        file.MirrorsIdle onto overrides)) ∧
    ((∀ ini ∈ file.ignored onto overrides, sectionMirror (file.device onto overrides) ini = .ok none) →
      loadConfig (some (file.kept onto overrides)) onto overrides false profile =
        loadConfig (some file) onto overrides false profile) :=
  ⟨fun _ => strict_iff, fun _ loaded => load_kept_iff loaded, load_kept_of_unstated⟩

/-- A desk for a device without rows, with a section for one of its outputs. -/
def rowlessFile (option value : String) : IniFile where
  sections :=
    [.single "device" "name" "Fireface 802", .route "route:main" "1/2" "1/2", .single "output:3" option value]
  distinct := show ["device", "route:main", "output:3"].Nodup by decide

theorem ignoredContribute_volume :
    loadConfig (some ((rowlessFile "volume" "-10").kept {} {})) {} {} false false =
      .ok (configOf (rowlessFile "volume" "-10")) := by
  have loaded : loadConfig (some (rowlessFile "volume" "-10")) {} {} false false =
      .ok (configOf (rowlessFile "volume" "-10")) := by
    decide +kernel
  refine ((ignoredContribute (rowlessFile "volume" "-10") {} {} false).2.1 _ loaded).mpr ?_
  have none : (rowlessFile "volume" "-10").ignoredMirrors {} {} = [] := by rfl
  unfold IniFile.MirrorsIdle
  rw [none]
  simp

/-- The mirror of an ignored section is copied all the same. -/
theorem ignored_mirror_copied :
    loadConfig (some (rowlessFile "mirror" "1/2")) {} {} false false = .ok (configOf (rowlessFile "mirror" "1/2")) ∧
      ((rowlessFile "mirror" "1/2").ignored {} {}).map (·.name) = ["output:3"] ∧
      (configOf (rowlessFile "mirror" "1/2")).routes.map (·.name) = ["main", "main-mirror-3-4"] ∧
      (configOf ((rowlessFile "mirror" "1/2").kept {} {})).routes.map (·.name) = ["main"] ∧
      loadConfig (some ((rowlessFile "mirror" "1/2").kept {} {})) {} {} false false ≠
        .ok (configOf (rowlessFile "mirror" "1/2")) := by
  refine ⟨by decide +kernel, by decide +kernel, by decide +kernel, by decide +kernel, by decide +kernel⟩

end OscmixDesk
