/-
**The submix of a mirror.**

The routes to a mirror's target are the copies of the routes to its source, in the same order, so
what the routes claim on the two is the same under the renaming (`mirror_claims`). The silent cells
of a base follow the links of the outputs. A pair and its mirror have the same link; an output
mirrored alone may be the even one of a pair that a route of two outputs of different pairs links, and
then only one of the two is silenced (`submix_mirrored_iff`).
-/

import OscmixDesk.Proof.Crosspoints

set_option maxRecDepth 100000

namespace OscmixDesk

open Checks

/-- What a configuration asks of a register. -/
def Asks (entries : List Entry) (path : Path) (args : Args) : Prop :=
  ∃ entry ∈ entries, entry.path = path ∧ entry.args = args

/-- A source output of a mirror and the target output that copies it. -/
def Mirror.Copies (mirror : Mirror) (source target : ℕ) : Prop :=
  (source, target) ∈ mirror.source.toList.zip mirror.target.toList

/-- The crosspoints asked for on the target of a mirror are those asked for on its source, and so is
the link of a mirrored pair. -/
structure SubmixMirrored (entries : List Entry) (mirror : Mirror) : Prop where
  crosspoints : ∀ source target, mirror.Copies source target → ∀ kind channel args,
    Asks entries (.mix target kind channel) args ↔ Asks entries (.mix source kind channel) args
  link : mirror.source.isPair = true → ∀ args,
    Asks entries (.link .output mirror.target.first) args
      ↔ Asks entries (.link .output mirror.source.first) args

/-! ### The copies -/

theorem Mirror.copies_cases {mirror : Mirror} {source target : ℕ}
    (copies : mirror.Copies source target) :
    (mirror.source = .mono source ∧ mirror.target = .mono target)
      ∨ ∃ left right left' right', mirror.source = .pair left right
        ∧ mirror.target = .pair left' right'
        ∧ ((source = left ∧ target = left') ∨ (source = right ∧ target = right')) := by
  unfold Mirror.Copies at copies
  have width := mirror.sameWidth
  cases fromSide : mirror.source with
  | mono own =>
      cases toSide : mirror.target with
      | mono copy =>
          rw [fromSide, toSide] at copies
          have same : source = own ∧ target = copy := by simpa [Channels.toList] using copies
          exact Or.inl ⟨by rw [same.1], by rw [same.2]⟩
      | pair left right =>
          rw [fromSide, toSide] at width
          cases width
  | pair left right =>
      cases toSide : mirror.target with
      | mono copy =>
          rw [fromSide, toSide] at width
          cases width
      | pair left' right' =>
          rw [fromSide, toSide] at copies
          have same : (source = left ∧ target = left') ∨ (source = right ∧ target = right') := by
            simpa [Channels.toList] using copies
          exact Or.inr ⟨left, right, left', right', rfl, rfl, same⟩

theorem Mirror.copies_mem {mirror : Mirror} {source target : ℕ}
    (copies : mirror.Copies source target) :
    source ∈ mirror.source.toList ∧ target ∈ mirror.target.toList :=
  List.of_mem_zip copies

/-- A claim, moved to another output. -/
def Entry.moved (target : ℕ) (entry : Entry) : Entry :=
  match entry.path with
  | .mix _ kind channel => { entry with path := .mix target kind channel }
  | _ => entry

/-- The copy of a route claims on a target what the route claims on its source. -/
theorem copy_claims {mirror : Mirror} {source target : ℕ} (copies : mirror.Copies source target)
    (apart : ∀ left right, mirror.target = .pair left right → left ≠ right)
    (apart' : ∀ left right, mirror.source = .pair left right → left ≠ right)
    (kind : Kind) (channel : ℕ) {route : Route} (own : route.output = mirror.source) :
    routeClaims target kind channel (mirrorCopy mirror route own)
      = (routeClaims source kind channel route).map (Entry.moved target) := by
  unfold routeClaims
  have elsewhere (here : ¬ (route.kind = kind ∧ route.source.first = channel)) (out out' : ℕ) :
      Path.mix out route.kind route.source.first ≠ .mix out' kind channel :=
    fun same => here ⟨(Path.mix.inj same).2.1, (Path.mix.inj same).2.2⟩
  rcases mirror.copies_cases copies with ⟨from', to'⟩ | ⟨left, right, left', right', from', to', side⟩
  · have cells : cellMessages route
        = [mixMessage source route.kind route.source.first route.level 0] := by
      simp only [cellMessages, own.trans from']
    have cells' : cellMessages (mirrorCopy mirror route own)
        = [mixMessage target route.kind route.source.first route.level 0] := by
      have output : (mirrorCopy mirror route own).output = .mono target := to'
      simp only [cellMessages, output]
      rfl
    rw [cells, cells']
    by_cases here : route.kind = kind ∧ route.source.first = channel
    · obtain ⟨rfl, rfl⟩ := here
      simp [mixMessage, Entry.moved, Message.entry, mirrorCopy]
    · simp [mixMessage, elsewhere here]
  · have cells : cellMessages route = if route.stereo then
          [mixMessage left route.kind route.source.first route.level route.pan]
        else [mixMessage left route.kind route.source.first (unlinkedLevel route.level) (-100),
          mixMessage right route.kind route.source.first (unlinkedLevel route.level) 100] := by
      simp only [cellMessages, own.trans from']
    have cells' : cellMessages (mirrorCopy mirror route own) = if route.stereo then
          [mixMessage left' route.kind route.source.first route.level route.pan]
        else [mixMessage left' route.kind route.source.first (unlinkedLevel route.level) (-100),
          mixMessage right' route.kind route.source.first (unlinkedLevel route.level) 100] := by
      have output : (mirrorCopy mirror route own).output = .pair left' right' := to'
      simp only [cellMessages, output]
      rfl
    have ne := apart left' right' to'
    have ne' := apart' left right from'
    rw [cells, cells']
    by_cases here : route.kind = kind ∧ route.source.first = channel
    · obtain ⟨rfl, rfl⟩ := here
      rcases side with ⟨rfl, rfl⟩ | ⟨rfl, rfl⟩ <;> cases route.stereo <;>
        simp [mixMessage, mirrorCopy, Entry.moved, Message.entry, ne, ne', ne.symm, ne'.symm]
    · cases route.stereo <;> simp [mixMessage, elsewhere here]

/-- A route claims nothing on an output it does not have. -/
theorem routeClaims_elsewhere {out channel : ℕ} {kind : Kind} {route : Route}
    (elsewhere : out ∉ route.output.toList) : routeClaims out kind channel route = [] := by
  rw [List.eq_nil_iff_forall_not_mem]
  intro entry member
  obtain ⟨message, inCells, path, -⟩ := mem_routeClaims.mp member
  obtain ⟨own, inOutput, _, _, rfl⟩ := mem_cellMessages inCells
  have same : own = out := (Path.mix.inj path).1
  exact elsewhere (same ▸ inOutput)

/-- A pair of two outputs that exist side by side is of two outputs. -/
theorem adjacent_ne {channels : Channels} {left right : ℕ} (shape : channels = .pair left right)
    (adjacent : channels.isPair = true → channels.adjacent = true) : left ≠ right := by
  subst shape
  have holds := adjacent rfl
  have facts : left % 2 = 1 ∧ right = left + 1 := by simpa [Channels.adjacent] using holds
  omega

/-- What is claimed on a mirror's target is claimed by the copies of that mirror alone. -/
theorem mirror_copies_claims {layers result : List Route} {mirrors : List Mirror}
    (expanded : Expanded layers mirrors result) {mirror : Mirror} (known : mirror ∈ mirrors)
    {source target : ℕ} (copies : mirror.Copies source target) (kind : Kind) (channel : ℕ) :
    mixClaims result target kind channel
      = (mirrorCopies layers mirror).flatMap (routeClaims target kind channel) := by
  have inTarget := (mirror.copies_mem copies).2
  have isTarget : target ∈ mirroredOutputs mirrors :=
    mem_mirroredOutputs.mpr ⟨mirror, known, inTarget⟩
  have originals : layers.flatMap (routeClaims target kind channel) = [] := by
    refine List.flatMap_eq_nil_iff.mpr fun route member => routeClaims_elsewhere fun inOutput => ?_
    exact expanded.free route member target inOutput isTarget
  obtain ⟨before, after, split⟩ := List.append_of_mem known
  have distinct := expanded.targets
  unfold mirroredOutputs at distinct
  rw [split, List.flatMap_append, List.flatMap_cons, List.nodup_append, List.nodup_append]
    at distinct
  obtain ⟨-, ⟨-, -, apartAfter⟩, apartBefore⟩ := distinct
  have others (list : List Mirror) (apart : ∀ other ∈ list, target ∉ other.target.toList) :
      (list.flatMap (mirrorCopies layers)).flatMap (routeClaims target kind channel) = [] := by
    refine List.flatMap_eq_nil_iff.mpr fun copy member => routeClaims_elsewhere ?_
    obtain ⟨other, inList, ofOther⟩ := List.mem_flatMap.mp member
    obtain ⟨route, -, own, rfl⟩ := mem_mirrorCopies.mp ofOther
    exact apart other inList
  have noBefore := others before fun other inList member =>
    apartBefore target (List.mem_flatMap.mpr ⟨other, inList, member⟩) target
      (List.mem_append_left _ inTarget) rfl
  have noAfter := others after fun other inList member =>
    apartAfter target inTarget target (List.mem_flatMap.mpr ⟨other, inList, member⟩) rfl
  rw [mixClaims_eq, expanded.result, List.flatMap_append, originals, split, List.flatMap_append,
    List.flatMap_cons, List.flatMap_append, List.flatMap_append, noBefore, noAfter, List.nil_append,
    List.nil_append, List.append_nil]

/-- What is claimed on a mirror's source is claimed by the original routes. -/
theorem mirror_source_claims {layers result : List Route} {mirrors : List Mirror}
    (expanded : Expanded layers mirrors result) {mirror : Mirror} (known : mirror ∈ mirrors)
    {source target : ℕ} (copies : mirror.Copies source target) (kind : Kind) (channel : ℕ) :
    mixClaims result source kind channel = layers.flatMap (routeClaims source kind channel) := by
  have noCopy : (mirrors.flatMap (mirrorCopies layers)).flatMap (routeClaims source kind channel)
      = [] := by
    refine List.flatMap_eq_nil_iff.mpr fun copy member => routeClaims_elsewhere fun inOutput => ?_
    obtain ⟨other, inMirrors, ofOther⟩ := List.mem_flatMap.mp member
    obtain ⟨route, -, own, rfl⟩ := mem_mirrorCopies.mp ofOther
    exact expanded.original mirror known source (mirror.copies_mem copies).1
      (mem_mirroredOutputs.mpr ⟨other, inMirrors, inOutput⟩)
  rw [mixClaims_eq, expanded.result, List.flatMap_append, noCopy, List.append_nil]

/-- The claims on a mirror's target are those on its source. -/
theorem mirror_claims {layers result : List Route} {mirrors : List Mirror}
    (expanded : Expanded layers mirrors result) {mirror : Mirror} (known : mirror ∈ mirrors)
    {device : Device} (shape : MirrorShape device mirror) {source target : ℕ}
    (copies : mirror.Copies source target) (kind : Kind) (channel : ℕ) :
    mixClaims result target kind channel
      = (mixClaims result source kind channel).map (Entry.moved target) := by
  rw [mirror_copies_claims expanded known copies, mirror_source_claims expanded known copies,
    List.map_flatMap]
  have each : ∀ route ∈ layers,
      (mirrorCopies [route] mirror).flatMap (routeClaims target kind channel)
        = (routeClaims source kind channel route).map (Entry.moved target) := by
    intro route member
    by_cases own : route.output = mirror.source
    · have one : mirrorCopies [route] mirror = [mirrorCopy mirror route own] := by
        simp [mirrorCopies, own]
      rw [one, List.flatMap_singleton]
      exact copy_claims copies (fun _ _ same => adjacent_ne same shape.targetPair)
        (fun _ _ same => adjacent_ne same shape.sourcePair) kind channel own
    · have none : mirrorCopies [route] mirror = [] := by simp [mirrorCopies, own]
      have free : routeClaims source kind channel route = [] := by
        refine routeClaims_elsewhere fun inOutput => own ?_
        exact expanded.whole route member mirror known source inOutput (mirror.copies_mem copies).1
      rw [none, free]
      rfl
  clear expanded
  induction layers with
  | nil => rfl
  | cons route rest ih =>
      have split : mirrorCopies (route :: rest) mirror
          = mirrorCopies [route] mirror ++ mirrorCopies rest mirror := by
        unfold mirrorCopies
        rw [← List.filterMap_append, List.singleton_append]
      rw [split, List.flatMap_append, List.flatMap_cons, each route List.mem_cons_self,
        ih fun other member => each other (List.mem_cons_of_mem _ member)]

/-- Moving the claims moves the winner. -/
theorem winner_map {claims : List Entry} {f : Entry → Entry} (keeps : ∀ entry, (f entry).base = entry.base) :
    winner (claims.map f) = (winner claims).map f := by
  have filtered : (claims.map f).filter (!·.base) = (claims.filter (!·.base)).map f := by
    rw [List.filter_map]
    congr 1
    exact List.filter_congr fun entry _ => by simp [keeps]
  unfold winner
  rw [filtered, List.getLast?_map, List.getLast?_map]
  cases (claims.filter (!·.base)).getLast? <;> rfl

theorem moved_base (target : ℕ) (entry : Entry) : (entry.moved target).base = entry.base := by
  unfold Entry.moved
  split <;> rfl

theorem moved_args (target : ℕ) (entry : Entry) : (entry.moved target).args = entry.args := by
  unfold Entry.moved
  split <;> rfl

/-! ### What is asked of the two sides -/

/-- A register is free of routes where they claim nothing for it. -/
theorem mix_not_mem_keys {routes : List Route} {out channel : ℕ} {kind : Kind} :
    Path.mix out kind channel ∉ (routeEntries routes).keys ↔ mixClaims routes out kind channel = [] := by
  rw [← Keyed.get?_eq_none, routeEntries_get, winner_eq_none]
  rfl

/-- What is asked of a crosspoint: the winner of its claims, or silence where there are none. -/
theorem Generated.asks_mix {config : Config} {entries channels globals : List Entry}
    (generated : Generated config entries channels globals) {out channel : ℕ} {kind : Kind}
    {args : Args} : Asks entries (.mix out kind channel) args ↔
      (∃ entry, winner (mixClaims config.routes out kind channel) = some entry ∧ entry.args = args)
      ∨ SilentAt config out kind channel ∧ mixClaims config.routes out kind channel = []
        ∧ args = [.real levelMin, .int 0] := by
  constructor
  · rintro ⟨entry, member, path, rfl⟩
    rcases (generated.crosspoint_iff path).mp member with won | silent
    · exact Or.inl ⟨entry, won, rfl⟩
    · obtain ⟨silentAt, free⟩ := silentAt_iff.mp ⟨entry, silent, path⟩
      exact Or.inr ⟨silentAt, mix_not_mem_keys.mp free, (silent_shape silent).2.2.2.2⟩
  · rintro (⟨entry, won, rfl⟩ | ⟨silentAt, free, rfl⟩)
    · have path : entry.path = .mix out kind channel :=
        of_decide_eq_true (List.mem_filter.mp (winner_mem won)).2
      exact ⟨entry, (generated.crosspoint_iff path).mpr (Or.inl won), path, rfl⟩
    · obtain ⟨entry, silent, path⟩ := silentAt_iff.mpr ⟨silentAt, mix_not_mem_keys.mpr free⟩
      exact ⟨entry, (generated.crosspoint_iff path).mpr (Or.inr silent), path,
        (silent_shape silent).2.2.2.2⟩

theorem anchor_eq {channel left : ℕ} (odd : left % 2 = 1) (anchored : anchor channel = left) :
    channel = left ∨ channel = left + 1 := by
  unfold anchor at anchored
  split at anchored <;> omega

/-- An output with a route of its own is no even channel of a linked pair. -/
theorem mono_not_linkedEven {config : Config} {declared added : List Route} {mirrors : List Mirror}
    (loaded : Loaded config declared added mirrors) {route : Route} (known : route ∈ config.routes)
    {out : ℕ} (output : route.output = .mono out) : ¬ LinkedEven config.routes .output out := by
  rintro ⟨even, linked⟩
  have stated := loaded.outputLink_declared known
  rw [output] at stated
  have same : anchor (Channels.mono out).first = pairLeft out := by
    show anchor out = pairLeft out
    unfold anchor pairLeft
    rw [if_neg (by omega)]
    omega
  rw [same, linked] at stated
  cases stated

section Mirrored

variable {config : Config} {entries channels globals : List Entry} {declared added : List Route}
  {mirrors : List Mirror} {mirror : Mirror}

/-- Where silence treats the two outputs alike, so does everything. -/
theorem asks_mirrored (generated : Generated config entries channels globals)
    (loaded : Loaded config declared added mirrors) (known : mirror ∈ mirrors) {source target : ℕ}
    (copies : mirror.Copies source target)
    (alike : config.base.silences = []
      ∨ (LinkedEven config.routes .output source ↔ LinkedEven config.routes .output target))
    (kind : Kind) (channel : ℕ) (args : Args) :
    Asks entries (.mix target kind channel) args ↔ Asks entries (.mix source kind channel) args := by
  obtain ⟨device, modelled, shape⟩ := loaded.mirror_shape known
  have claims := mirror_claims loaded.expansion known shape copies kind channel
  have silent : SilentAt config target kind channel ↔ SilentAt config source kind channel := by
    have mem := mirror.copies_mem copies
    have alike (silenced : kind ∈ config.base.silences) :
        LinkedEven config.routes .output source ↔ LinkedEven config.routes .output target := by
      rcases alike with none | same
      · rw [none] at silenced
        cases silenced
      · exact same
    constructor
    · rintro ⟨silenced, ⟨own, modelled', -, exist⟩, output, side⟩
      have same : own = device := Option.some.inj (modelled'.symm.trans modelled)
      subst same
      exact ⟨silenced, ⟨own, modelled, shape.source _ mem.1, exist⟩,
        fun linked => output ((alike silenced).mp linked), side⟩
    · rintro ⟨silenced, ⟨own, modelled', -, exist⟩, output, side⟩
      have same : own = device := Option.some.inj (modelled'.symm.trans modelled)
      subst same
      exact ⟨silenced, ⟨own, modelled, shape.target _ mem.2, exist⟩,
        fun linked => output ((alike silenced).mpr linked), side⟩
  rw [generated.asks_mix, generated.asks_mix, claims, winner_map (moved_base target), silent,
    List.map_eq_nil_iff]
  refine or_congr_left ?_
  constructor
  · rintro ⟨entry, won, rfl⟩
    obtain ⟨own, held, rfl⟩ := Option.map_eq_some_iff.mp won
    exact ⟨own, held, (moved_args target own).symm⟩
  · rintro ⟨entry, won, rfl⟩
    exact ⟨entry.moved target, by rw [won]; rfl, moved_args target entry⟩

/-- A pair and its mirror are linked alike. -/
theorem pair_links (loaded : Loaded config declared added mirrors) (known : mirror ∈ mirrors)
    (pair : mirror.source.isPair = true) :
    declaredLink config.routes .output mirror.target.first
      = declaredLink config.routes .output mirror.source.first := by
  obtain ⟨device, -, shape⟩ := loaded.mirror_shape known
  have expanded := loaded.expansion
  obtain ⟨oddSource, sourcePair⟩ := adjacent_pair (shape.sourcePair pair)
  obtain ⟨oddTarget, targetPair⟩ := adjacent_pair (shape.targetPair (mirror.sameWidth.trans pair))
  have anchored (side : Channels) (odd : side.first % 2 = 1) : anchor side.first = side.first := by
    unfold anchor
    rw [if_pos odd]
  -- A route that states the link of one of the two pairs covers that pair whole.
  have ofSource (route : Route) (member : route ∈ config.routes)
      (own : anchor route.output.first = mirror.source.first) :
      route ∈ declared ++ added ∧ route.output = mirror.source := by
    have inOutput := route.output.first_mem
    have inSource : route.output.first ∈ mirror.source.toList := by
      rw [sourcePair]
      simpa [Channels.toList] using anchor_eq oddSource own
    rcases loaded.mem_routes.mp member with layer | ⟨other, inMirrors, original, -, same, rfl⟩
    · exact ⟨layer, expanded.whole route layer mirror known _ inOutput inSource⟩
    · exact absurd (mem_mirroredOutputs.mpr ⟨other, inMirrors, inOutput⟩)
        (expanded.original mirror known _ inSource)
  have ofTarget (route : Route) (member : route ∈ config.routes)
      (own : anchor route.output.first = mirror.target.first) :
      ∃ original ∈ declared ++ added, ∃ same : original.output = mirror.source,
        route = mirrorCopy mirror original same := by
    have inOutput := route.output.first_mem
    have inTarget : route.output.first ∈ mirror.target.toList := by
      rw [targetPair]
      simpa [Channels.toList] using anchor_eq oddTarget own
    rcases loaded.mem_routes.mp member with layer | ⟨other, inMirrors, original, layer, same, copy⟩
    · exact absurd (mem_mirroredOutputs.mpr ⟨mirror, known, inTarget⟩)
        (expanded.free route layer _ inOutput)
    · have inOther : route.output.first ∈ other.target.toList := by
        rw [copy] at inOutput ⊢
        exact inOutput
      have equal : other = mirror := by
        by_contra differs
        have apart := (List.nodup_flatMap.mp expanded.targets).2
        have symmetric : Std.Symm (Function.onFun List.Disjoint fun own : Mirror => own.target.toList) :=
          ⟨fun _ _ disjoint => List.Disjoint.symm disjoint⟩
        exact apart.forall inMirrors known differs inOther inTarget
      subst equal
      exact ⟨original, layer, same, copy⟩
  apply Option.ext
  intro linked
  constructor
  · intro declares
    obtain ⟨route, member, states⟩ := mem_allRequirements.mp (declaredLink_eq_some declares)
    rcases states with source | output
    · have family := congrArg LinkRequirement.family source
      cases kind : route.kind <;> simp [Route.sourceLink, kind, Kind.family] at family
    · have own : anchor route.output.first = mirror.target.first :=
        (congrArg LinkRequirement.channel output).symm
      obtain ⟨original, layer, same, copy⟩ := ofTarget route member own
      have stated := loaded.outputLink_declared (loaded.mem_routes.mpr (Or.inl layer))
      rw [same, anchored mirror.source oddSource] at stated
      have flag : linked = (route.output.isPair && route.stereo) :=
        congrArg LinkRequirement.linked output
      have width : route.output.isPair = mirror.source.isPair := by
        rw [copy]
        exact mirror.sameWidth
      have stereo : route.stereo = original.stereo := by rw [copy]; rfl
      rw [stated, flag, width, stereo]
  · intro declares
    obtain ⟨route, member, states⟩ := mem_allRequirements.mp (declaredLink_eq_some declares)
    rcases states with source | output
    · have family := congrArg LinkRequirement.family source
      cases kind : route.kind <;> simp [Route.sourceLink, kind, Kind.family] at family
    · have own : anchor route.output.first = mirror.source.first :=
        (congrArg LinkRequirement.channel output).symm
      obtain ⟨layer, same⟩ := ofSource route member own
      have copied : mirrorCopy mirror route same ∈ config.routes :=
        loaded.mem_routes.mpr (Or.inr ⟨mirror, known, route, layer, same, rfl⟩)
      have stated := loaded.outputLink_declared copied
      have output' : (mirrorCopy mirror route same).output = mirror.target := rfl
      rw [output', anchored mirror.target oddTarget] at stated
      have flag : linked = (route.output.isPair && route.stereo) :=
        congrArg LinkRequirement.linked output
      have width : mirror.target.isPair = route.output.isPair := by
        rw [same, mirror.sameWidth]
      rw [stated, flag, width]
      rfl

/-- The outputs of a pair and of its mirror are alike under silence. -/
theorem pair_alike (loaded : Loaded config declared added mirrors) (known : mirror ∈ mirrors)
    {source target : ℕ} (copies : mirror.Copies source target)
    (pair : mirror.source.isPair = true) :
    LinkedEven config.routes .output source ↔ LinkedEven config.routes .output target := by
  obtain ⟨device, -, shape⟩ := loaded.mirror_shape known
  have equal := pair_links loaded known pair
  obtain ⟨odd, sourcePair⟩ := adjacent_pair (shape.sourcePair pair)
  obtain ⟨odd', targetPair⟩ := adjacent_pair (shape.targetPair (mirror.sameWidth.trans pair))
  have side : (source = mirror.source.first ∧ target = mirror.target.first)
      ∨ (source = mirror.source.first + 1 ∧ target = mirror.target.first + 1) := by
    unfold Mirror.Copies at copies
    rw [sourcePair, targetPair] at copies
    simpa [Channels.toList, Channels.first] using copies
  unfold LinkedEven
  rcases side with ⟨rfl, rfl⟩ | ⟨rfl, rfl⟩
  · exact iff_of_false (fun linked => by have := linked.1; omega)
      fun linked => by have := linked.1; omega
  · rw [pairLeft_even odd, pairLeft_even odd', equal]
    exact and_congr_left' (iff_of_true (by omega) (by omega))

/-- Where one of two outputs is the even channel of a linked pair and the other is not, no route
claims a crosspoint of either. -/
theorem unclaimed_of_linkedEven (loaded : Loaded config declared added mirrors)
    (known : mirror ∈ mirrors) {source target : ℕ} (fromSide : mirror.source = .mono source)
    (toSide : mirror.target = .mono target)
    (linked : LinkedEven config.routes .output source ∨ LinkedEven config.routes .output target)
    (kind : Kind) (channel : ℕ) : mixClaims config.routes source kind channel = []
      ∧ mixClaims config.routes target kind channel = [] := by
  obtain ⟨device, -, shape⟩ := loaded.mirror_shape known
  have copies : mirror.Copies source target := by
    unfold Mirror.Copies
    rw [fromSide, toSide]
    exact List.mem_singleton_self _
  have expanded := loaded.expansion
  have none : mixClaims config.routes source kind channel = [] := by
    rw [mirror_source_claims expanded known copies]
    refine List.flatMap_eq_nil_iff.mpr fun route layer => routeClaims_elsewhere fun inOutput => ?_
    have own := expanded.whole route layer mirror known source inOutput (mirror.copies_mem copies).1
    have member := loaded.mem_routes.mpr (Or.inl layer)
    have copied : mirrorCopy mirror route own ∈ config.routes :=
      loaded.mem_routes.mpr (Or.inr ⟨mirror, known, route, layer, own, rfl⟩)
    rcases linked with isSource | isTarget
    · exact mono_not_linkedEven loaded member (own.trans fromSide) isSource
    · exact mono_not_linkedEven loaded copied toSide isTarget
  refine ⟨none, ?_⟩
  rw [mirror_claims expanded known shape copies, none]
  rfl

end Mirrored

/-! ### The result -/

/-- Whether the links treat a mirror's source and target alike under silence: a base silences nothing,
the mirror is a pair, or its outputs are both or neither the even channel of a linked pair. -/
def SilencedAlike (config : Config) (mirror : Mirror) : Prop :=
  config.base.silences = [] ∨ mirror.source.isPair = true
    ∨ (LinkedEven config.routes .output mirror.source.first
      ↔ LinkedEven config.routes .output mirror.target.first)

/-- The submix asked for on a mirror's target is that of its source exactly where silence treats the
two alike. -/
theorem submix_mirrored_iff {file : IniFile} {onto : Config} {overrides : Overrides}
    {strict profile : Bool} {config : Config}
    (read : loadConfig (some file) onto overrides strict profile = .ok config)
    {ini : IniSection} (member : ini ∈ file.sections) {mirror : Mirror}
    (declares : sectionMirror (deviceForName config.deviceName) ini = .ok (some mirror)) :
    (∃ entries, desired config = .ok entries ∧ SubmixMirrored entries mirror)
      ↔ SilencedAlike config mirror := by
  obtain ⟨declared, added, mirrors, loaded, ofFile⟩ := loadConfig_loaded read
  have known : mirror ∈ mirrors := ofFile ini member mirror declares
  obtain ⟨entries, channels, globals, generated⟩ := loaded.generated
  obtain ⟨device, modelled, shape⟩ := loaded.mirror_shape known
  have links : mirror.source.isPair = true → ∀ args,
      Asks entries (.link .output mirror.target.first) args
        ↔ Asks entries (.link .output mirror.source.first) args := by
    intro pair args
    unfold Asks
    rw [generated.link_iff loaded, generated.link_iff loaded, pair_links loaded known pair]
  constructor
  · rintro ⟨others, desiredRead, mirrored⟩
    have same : others = entries := Except.ok.inj (desiredRead.symm.trans generated.desired)
    subst same
    by_contra unlike
    have silences : config.base.silences ≠ [] := fun none => unlike (Or.inl none)
    have mono : mirror.source.isPair ≠ true := fun pair => unlike (Or.inr (Or.inl pair))
    have differ : ¬ (LinkedEven config.routes .output mirror.source.first
        ↔ LinkedEven config.routes .output mirror.target.first) :=
      fun same => unlike (Or.inr (Or.inr same))
    have fromSide := mono_of_not_pair (by simpa using mono)
    have toSide := mono_of_not_pair (mirror.sameWidth.trans (by simpa using mono))
    have copies : mirror.Copies mirror.source.first mirror.target.first := by
      unfold Mirror.Copies
      rw [fromSide, toSide]
      exact List.mem_singleton_self _
    -- A silent crosspoint of the first source the base silences is asked of one side only.
    obtain ⟨kind, silenced⟩ := List.exists_mem_of_ne_nil _ silences
    obtain ⟨half, positive, counted⟩ := (deviceForName_tabled modelled).mem_channels
    have first : (1 : ℕ) ∈ device.channelsFor kind.family.name := (counted _ _).mpr (by omega)
    have odd : ¬ LinkedEven config.routes kind.family 1 := fun linked => by
      have even := linked.1
      omega
    have silentAt (out : ℕ) (exist : out ∈ device.channelsFor "output")
        (free : ¬ LinkedEven config.routes .output out) : SilentAt config out kind 1 :=
      ⟨silenced, ⟨device, modelled, exist, first⟩, free, odd⟩
    have both := mirrored.crosspoints _ _ copies kind 1 [.real levelMin, .int 0]
    rw [generated.asks_mix, generated.asks_mix] at both
    have inSource := (mirror.copies_mem copies).1
    have inTarget := (mirror.copies_mem copies).2
    by_cases isSource : LinkedEven config.routes .output mirror.source.first
    · have isTarget : ¬ LinkedEven config.routes .output mirror.target.first :=
        fun linked => differ (iff_of_true isSource linked)
      obtain ⟨noSource, noTarget⟩ :=
        unclaimed_of_linkedEven loaded known fromSide toSide (Or.inl isSource) kind 1
      rw [noSource, noTarget] at both
      have asked := both.mp (Or.inr ⟨silentAt _ (shape.target _ inTarget) isTarget, rfl, rfl⟩)
      rcases asked with ⟨entry, won, -⟩ | ⟨silent, -, -⟩
      · cases won
      · exact silent.output isSource
    · have isTarget : LinkedEven config.routes .output mirror.target.first := by
        by_contra free
        exact differ (iff_of_false isSource free)
      obtain ⟨noSource, noTarget⟩ :=
        unclaimed_of_linkedEven loaded known fromSide toSide (Or.inr isTarget) kind 1
      rw [noSource, noTarget] at both
      have asked := both.mpr (Or.inr ⟨silentAt _ (shape.source _ inSource) isSource, rfl, rfl⟩)
      rcases asked with ⟨entry, won, -⟩ | ⟨silent, -, -⟩
      · cases won
      · exact silent.output isTarget
  · intro alike
    refine ⟨entries, generated.desired, ⟨?_, links⟩⟩
    intro source target copies kind channel args
    refine asks_mirrored generated loaded known copies ?_ kind channel args
    rcases alike with none | pair | alike
    · exact Or.inl none
    · exact Or.inr (pair_alike loaded known copies pair)
    · by_cases pair : mirror.source.isPair = true
      · exact Or.inr (pair_alike loaded known copies pair)
      · have fromSide := mono_of_not_pair (by simpa using pair)
        have toSide := mono_of_not_pair (mirror.sameWidth.trans (by simpa using pair))
        unfold Mirror.Copies at copies
        rw [fromSide, toSide] at copies
        obtain ⟨rfl, rfl⟩ := Prod.mk.inj (List.mem_singleton.mp copies)
        exact Or.inr alike

/-- An output that copies another, read from its own section. -/
def monoMirror (target source : ℕ) : Mirror where
  target := .mono target
  source := .mono source
  sameWidth := Channels.mono_width _ _

/-- A pair copied onto another under a base that silences the inputs. -/
def pairMirrored : IniFile where
  sections :=
    [.single "desk" "base" "clear-inputs", .route "route:x" "1/2" "3/4",
      .single "output:5" "mirror" "3/4"]
  distinct := by decide

theorem pairMirrored_submix :
    ∃ entries, desired (configOf pairMirrored) = .ok entries
      ∧ SubmixMirrored entries
        { target := .pair 5 6, source := .pair 3 4, sameWidth := Channels.pair_width _ _ _ _ } :=
  (submix_mirrored_iff
    (show loadConfig (some pairMirrored) {} {} false false = .ok (configOf pairMirrored) by
      decide +kernel)
    (.tail _ (.tail _ (.head _))) (by rfl)).mpr (Or.inr (Or.inl rfl))

/-- A route of outputs 9 and 4 links the pair 9/10, of which output 7 copies the even one. -/
def evenMirrored : IniFile where
  sections :=
    [.single "desk" "base" "clear-inputs", .route "route:x" "1/2" "9/4",
      .single "output:7" "mirror" "10"]
  distinct := by decide

/-- What is asked of a crosspoint of the file above. -/
def evenAsks (out : ℕ) : Bool :=
  match desired (configOf evenMirrored) with
  | .error _ => false
  | .ok entries =>
      entries.any fun entry => entry.path = .mix out .input 1 && entry.args = [.real levelMin, .int 0]

/-- Output 7 is silenced, its source is not. -/
theorem evenMirrored_differs :
    loadConfig (some evenMirrored) = .ok (configOf evenMirrored)
      ∧ sectionMirror (deviceForName (configOf evenMirrored).deviceName)
          (.single "output:7" "mirror" "10") = .ok (some (monoMirror 7 10))
      ∧ ¬ ∃ entries, desired (configOf evenMirrored) = .ok entries
          ∧ SubmixMirrored entries (monoMirror 7 10) := by
  refine ⟨by decide +kernel, by rfl, ?_⟩
  rintro ⟨entries, read, mirrored⟩
  have copy : evenAsks 7 = true := by decide +kernel
  have source : evenAsks 10 = false := by decide +kernel
  unfold evenAsks at copy source
  rw [read] at copy source
  have asked : Asks entries (.mix 7 .input 1) [.real levelMin, .int 0] := by
    simpa [Asks] using copy
  have silent := (mirrored.crosspoints 10 7 (.head _) .input 1 _).mp asked
  exact Bool.false_ne_true (source.symm.trans (by simpa [Asks] using silent))

end OscmixDesk
