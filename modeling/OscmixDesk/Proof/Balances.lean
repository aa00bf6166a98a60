/-
**Balanced crosspoints and the order of the routes.**

A balance is accepted where every other claim to its register agrees with it (`validateRoutePan_iff`). The
right output of an unlinked pair is no claim of that check: where it is an output of a balanced pair, the
links fold it onto the balanced crosspoint (`Overlaps`), and what is asked there depends on the order of
the routes (`crossedPairs_ordered`). Where no overlap does harm every order asks the same
(`balancedOrder`).
-/

import OscmixDesk.Proof.Crosspoints

namespace OscmixDesk

open Checks

/-! ### What the check accepts -/

theorem disagreement_eq_none {seen rest : List LinkRequirement} :
    disagreement seen rest = none ↔ (∀ first ∈ seen, ∀ second ∈ rest, first.Agrees second)
      ∧ rest.Pairwise fun first second => first.Agrees second := by
  constructor
  · exact disagreement_none
  · induction rest generalizing seen with
    | nil => exact fun _ => rfl
    | cons requirement rest ih =>
        rintro ⟨before, pairs⟩
        obtain ⟨here, after⟩ := List.pairwise_cons.mp pairs
        unfold disagreement
        rw [if_neg]
        · refine ih ⟨fun first member second later => ?_, after⟩
          rcases List.mem_append.mp member with member | member
          · exact before first member second (List.mem_cons_of_mem _ later)
          · rw [List.mem_singleton.mp member]
            exact here second later
        · rw [Bool.not_eq_true, List.any_eq_false]
          intro first member contradicts
          simp only [Bool.and_eq_true, decide_eq_true_eq, bne_iff_ne] at contradicts
          obtain ⟨⟨family, channel⟩, apart⟩ := contradicts
          exact apart (before first member requirement List.mem_cons_self family channel)

/-- The routes agree on every pair exactly where any two of their words do. -/
theorem links_agree_iff {routes : List Route} :
    disagreement [] (allRequirements routes) = none ↔
      ∀ first ∈ allRequirements routes, ∀ second ∈ allRequirements routes, first.Agrees second := by
  constructor
  · exact fun none first member second member' => requirements_agree none member member'
  · intro agree
    refine disagreement_eq_none.mpr ⟨fun first member => absurd member List.not_mem_nil, ?_⟩
    exact List.pairwise_of_forall_mem_list agree

/-- One route claims the register of another: both state its level and balance. -/
def Route.SameValue (first second : Route) : Prop :=
  first.level = second.level ∧ first.pan = second.pan

theorem claimProblem_eq_none {claims : List Route} :
    claimProblem claims = none ↔
      ∀ first ∈ claims, first.pan ≠ 0 → ∀ second ∈ claims, first.SameValue second := by
  cases claims with
  | nil => simp [claimProblem]
  | cons first others =>
      unfold claimProblem
      dsimp only
      by_cases centred : (first :: others).all (·.pan = 0) = true
      · rw [if_pos centred]
        refine iff_of_true rfl fun route member balanced => absurd ?_ balanced
        exact of_decide_eq_true (List.all_eq_true.mp centred route member)
      · rw [if_neg centred, Option.map_eq_none_iff, List.find?_eq_none]
        have same : (∀ route ∈ others, ¬(first.level ≠ route.level || first.pan ≠ route.pan) = true) ↔
            ∀ route ∈ first :: others, first.SameValue route := by
          simp [Route.SameValue, not_or]
        rw [same]
        constructor
        · intro all one member _ other member'
          obtain ⟨level, pan⟩ := all one member
          obtain ⟨level', pan'⟩ := all other member'
          exact ⟨level.symm.trans level', pan.symm.trans pan'⟩
        · intro all
          obtain ⟨route, member, balanced⟩ : ∃ route ∈ first :: others, route.pan ≠ 0 := by
            by_contra none
            push Not at none
            exact centred (List.all_eq_true.mpr fun route member => decide_eq_true (none route member))
          intro other member'
          obtain ⟨level, pan⟩ := all route member balanced first List.mem_cons_self
          obtain ⟨level', pan'⟩ := all route member balanced other member'
          exact ⟨level.symm.trans level', pan.symm.trans pan'⟩

/-- What the check of the balances accepts: no balance at all, or routes that agree on every link and on
every register that a balance is declared for. -/
theorem validateRoutePan_iff {routes : List Route} :
    validateRoutePan routes = .ok () ↔ (∀ route ∈ routes, route.pan = 0) ∨
      (∀ first ∈ allRequirements routes, ∀ second ∈ allRequirements routes, first.Agrees second) ∧
      ∀ first ∈ routes, first.pan ≠ 0 → ∀ second ∈ routes, first.cellKey = second.cellKey →
        first.SameValue second := by
  unfold validateRoutePan
  by_cases centred : routes.all (·.pan = 0) = true
  · rw [if_pos centred]
    exact iff_of_true rfl (.inl fun route member => of_decide_eq_true (List.all_eq_true.mp centred route member))
  · have some_balanced : ¬∀ route ∈ routes, route.pan = 0 := by simpa using centred
    rw [if_neg centred, or_iff_right some_balanced, ← links_agree_iff]
    cases agreed : disagreement [] (allRequirements routes) with
    | some requirement => simp
    | none =>
        dsimp only
        have claims : (routes.map Route.cellKey).eraseDups.findSome? (fun key =>
            claimProblem (routes.filter (·.cellKey = key))) = none ↔
            ∀ first ∈ routes, first.pan ≠ 0 → ∀ second ∈ routes, first.cellKey = second.cellKey →
              first.SameValue second := by
          rw [List.findSome?_eq_none_iff]
          constructor
          · intro none first member balanced second member' same
            have key : first.cellKey ∈ (routes.map Route.cellKey).eraseDups :=
              List.mem_eraseDups.mpr (List.mem_map_of_mem member)
            exact claimProblem_eq_none.mp (none _ key) first (List.mem_filter.mpr ⟨member, by simp⟩) balanced
              second (List.mem_filter.mpr ⟨member', by simp [same]⟩)
          · intro all key _
            refine claimProblem_eq_none.mpr fun first member balanced second member' => ?_
            obtain ⟨known, own⟩ := List.mem_filter.mp member
            obtain ⟨known', own'⟩ := List.mem_filter.mp member'
            exact all first known balanced second known'
              ((of_decide_eq_true own).trans (of_decide_eq_true own').symm)
        rw [← claims]
        split
        next problem found => simp [found]
        next none => simp [none]

/-! ### Another order -/

section Order

variable {config : Config} {routes : List Route}

/-- The configuration with its routes in another order. -/
def Config.reordered (config : Config) (routes : List Route) : Config :=
  { config with routes := routes }

theorem deviceForName_reordered :
    deviceForName (config.reordered routes).deviceName = deviceForName config.deviceName := rfl

theorem allRequirements_perm (perm : routes.Perm config.routes) {requirement : LinkRequirement} :
    requirement ∈ allRequirements routes ↔ requirement ∈ allRequirements config.routes :=
  (perm.flatMap_right _).mem_iff

theorem validateRoutePan_perm (perm : routes.Perm config.routes)
    (accepted : validateRoutePan config.routes = .ok ()) : validateRoutePan routes = .ok () := by
  rw [validateRoutePan_iff] at accepted ⊢
  simpa only [perm.mem_iff, allRequirements_perm perm] using accepted

theorem declaredMonoPairs_perm (perm : routes.Perm config.routes) :
    declaredMonoPairs (config.reordered routes) = declaredMonoPairs config := by
  unfold declaredMonoPairs
  refine List.filter_congr fun left _ => ?_
  have widths := ((perm.filter fun route =>
    route.kind = .input && pairLeft route.source.first = left).map (·.source.isPair))
  show (!List.isEmpty (List.map _ (List.filter _ routes)) && List.all (List.map _ (List.filter _ routes)) _) = _
  rw [widths.isEmpty_eq, widths.all_eq]

theorem validateAutogain_perm (perm : routes.Perm config.routes) :
    validateAutogain (config.reordered routes) = validateAutogain config := by
  unfold validateAutogain
  rw [declaredMonoPairs_perm perm]
  rfl

theorem validateRouteLinks_perm (perm : routes.Perm config.routes) {device : Device}
    (accepted : validateRouteLinks config.routes device = .ok ()) : validateRouteLinks routes device = .ok () := by
  unfold validateRouteLinks at accepted ⊢
  split at accepted
  · cases accepted
  next valid =>
    have same : routes.find? (fun route => route.kind = .playback && !validPlaybackRoute device route) = none := by
      rw [List.find?_eq_none] at valid ⊢
      exact fun route member => valid route (perm.mem_iff.mp member)
    rw [same]
    split at accepted
    · cases accepted
    next agreed =>
      have agree : disagreement [] (allRequirements routes) = none := by
        rw [links_agree_iff] at agreed ⊢
        simpa only [allRequirements_perm perm] using agreed
      rw [agree]

theorem uncoveredCells_perm (perm : routes.Perm config.routes) (device : Device) (left : ℕ) :
    uncoveredCells (config.reordered routes) device left = uncoveredCells config device left := by
  refine List.filter_congr fun cell _ => ?_
  have cells : (routeCells (config.reordered routes) left).Perm (routeCells config left) :=
    (perm.filter _).flatMap_right _
  rw [cells.contains_eq]

theorem validatePlaybackMute_perm (perm : routes.Perm config.routes)
    (accepted : validatePlaybackMute config = .ok ()) : validatePlaybackMute (config.reordered routes) = .ok () := by
  have cover (device : Device) (mutes : List (ℕ × ℤ)) :
      checkUnmute (config.reordered routes) device mutes = checkUnmute config device mutes := by
    funext left
    unfold checkUnmute
    rw [uncoveredCells_perm perm]
  unfold validatePlaybackMute at accepted ⊢
  obtain ⟨mutes, read, rest⟩ := bind_eq_ok.mp accepted
  refine bind_eq_ok.mpr ⟨mutes, read, ?_⟩
  split at rest
  next empty => rw [if_pos empty]; rfl
  next stated =>
    rw [if_neg stated]
    rw [deviceForName_reordered]
    cases modelled : deviceForName config.deviceName with
    | none => simp [modelled] at rest
    | some device =>
        rw [modelled] at rest
        obtain ⟨⟨⟩, partners, rest⟩ := bind_eq_ok.mp rest
        obtain ⟨⟨⟩, links, rest⟩ := bind_eq_ok.mp rest
        refine bind_eq_ok.mpr ⟨⟨⟩, partners, bind_eq_ok.mpr ⟨⟨⟩, ?_, ?_⟩⟩
        · exact validateRouteLinks_perm perm links
        · rw [cover]
          exact rest

/-- What is asked of the device can be asked in any order of the routes. -/
theorem desired_perm (perm : routes.Perm config.routes) {entries : List Entry}
    (asked : desired config = .ok entries) :
    ∃ others, desired (config.reordered routes) = .ok others := by
  unfold desired at asked ⊢
  obtain ⟨⟨⟩, checked, rest⟩ := bind_eq_ok.mp asked
  obtain ⟨channels, channelsRead, rest⟩ := bind_eq_ok.mp rest
  obtain ⟨globals, globalsRead, rest⟩ := bind_eq_ok.mp rest
  suffices again : checkDesired (config.reordered routes) = .ok () from
    ⟨_, bind_eq_ok.mpr ⟨⟨⟩, again, bind_eq_ok.mpr ⟨channels, channelsRead,
      bind_eq_ok.mpr ⟨globals, globalsRead, rfl⟩⟩⟩⟩
  unfold checkDesired at checked ⊢
  obtain ⟨⟨⟩, pans, checked⟩ := bind_eq_ok.mp checked
  obtain ⟨⟨⟩, gains, checked⟩ := bind_eq_ok.mp checked
  obtain ⟨⟨⟩, mutes, checked⟩ := bind_eq_ok.mp checked
  refine bind_eq_ok.mpr ⟨⟨⟩, ?_, bind_eq_ok.mpr ⟨⟨⟩, ?_, bind_eq_ok.mpr ⟨⟨⟩, ?_, ?_⟩⟩⟩
  · exact mapError_eq_ok.mpr (validateRoutePan_perm perm (mapError_eq_ok.mp pans))
  · rw [validateAutogain_perm perm]
    exact gains
  · exact mapError_eq_ok.mpr (validatePlaybackMute_perm perm (mapError_eq_ok.mp mutes))
  · rw [deviceForName_reordered]
    cases modelled : deviceForName config.deviceName with
    | none => rfl
    | some device =>
        rw [modelled] at checked
        refine forM_eq_ok.mpr fun route member => ?_
        exact forM_eq_ok.mp checked route (perm.mem_iff.mp member)

end Order

/-! ### Crosspoints after the fold -/

/-- The last channel of a side. -/
def Channels.second : Channels → ℕ
  | mono channel => channel
  | pair _ right => right

/-- The channel a register is addressed at once the links of the routes are written. -/
def foldedChannel (routes : List Route) (family : Family) (channel : ℕ) : ℕ :=
  if declaredLink routes family (anchor channel) = some true then anchor channel else channel

/-- The crosspoint a matrix register is, after the fold. -/
def crosspoint (routes : List Route) : Path → Option (ℕ × Kind × ℕ)
  | .mix out kind source =>
      some (foldedChannel routes .output out, kind, foldedChannel routes kind.family source)
  | _ => none

/-- The register a route writes for its first output. -/
def Route.register (route : Route) : Path :=
  .mix route.output.first route.kind route.source.first

/-- The value a linked route asks of its register. -/
def Route.value (route : Route) : Args :=
  [.real route.level, .int route.pan]

/-- The register an unlinked route writes for its right output. -/
def Route.rightRegister (route : Route) : Path :=
  .mix route.output.second route.kind route.source.first

/-- The value an unlinked route asks of its right register. -/
def Route.rightValue (route : Route) : Args :=
  [.real (unlinkedLevel route.level), .int 100]

/-- An unlinked route whose right output is one of the outputs of a balanced route of the same sources. -/
structure Overlaps (split balanced : Route) : Prop where
  pair : split.output.isPair = true
  unlinked : split.stereo = false
  output : anchor split.output.second = balanced.output.first
  kind : split.kind = balanced.kind
  source : anchor split.source.first = balanced.source.first

/-- What a balance requires of its route. -/
structure Balanced (route : Route) : Prop where
  stereo : route.stereo = true
  source : route.source.adjacent = true
  output : route.output.adjacent = true

theorem Balanced.of_checked {route : Route} (checked : route.checkedPan = .ok route.pan)
    (balanced : route.pan ≠ 0) : Balanced route := by
  unfold Route.checkedPan at checked
  obtain ⟨-, checked⟩ := guard_eq_ok.mp checked
  rw [if_pos balanced] at checked
  obtain ⟨shape, -⟩ := guard_eq_ok.mp checked
  simp only [Bool.or_eq_true, Bool.not_eq_true', not_or, Bool.not_eq_false] at shape
  exact ⟨shape.1.1.1, shape.1.2, shape.2⟩

theorem anchor_odd {channel : ℕ} (odd : channel % 2 = 1) : anchor channel = channel :=
  if_pos odd

/-- A channel folds onto the odd one of a linked pair exactly where it is of that pair. -/
theorem foldedChannel_eq_iff {routes : List Route} {family : Family} {channel left : ℕ} (odd : left % 2 = 1)
    (linked : declaredLink routes family left = some true) :
    foldedChannel routes family channel = left ↔ anchor channel = left := by
  unfold foldedChannel
  by_cases folds : declaredLink routes family (anchor channel) = some true
  · rw [if_pos folds]
  · rw [if_neg folds]
    constructor
    · rintro rfl
      exact anchor_odd odd
    · intro same
      exact absurd (same ▸ linked) folds

section Fold

variable {routes : List Route} {balanced : Route}

/-- A balanced route links both of its pairs. -/
theorem Balanced.linked (shape : Balanced balanced) (known : balanced ∈ routes)
    (agreed : disagreement [] (allRequirements routes) = none) :
    declaredLink routes .output balanced.output.first = some true ∧
      declaredLink routes balanced.kind.family balanced.source.first = some true := by
  obtain ⟨oddOut, outPair⟩ := adjacent_pair shape.output
  obtain ⟨oddSource, sourcePair⟩ := adjacent_pair shape.source
  have output := declaredLink_of_mem agreed (mem_allRequirements.mpr ⟨balanced, known, .inr rfl⟩)
  have source := declaredLink_of_mem agreed (mem_allRequirements.mpr ⟨balanced, known, .inl rfl⟩)
  constructor
  · have linked : balanced.outputLink.linked = true := by
      show (balanced.output.isPair && balanced.stereo) = true
      rw [outPair, shape.stereo]
      rfl
    rw [linked] at output
    exact (anchor_odd oddOut) ▸ output
  · have linked : balanced.sourceLink.linked = true := by
      show balanced.source.isPair = true
      rw [sourcePair]
      rfl
    rw [linked] at source
    exact (anchor_odd oddSource) ▸ source

/-- The registers of a balanced crosspoint are those between its pairs. -/
theorem Balanced.crosspoint_iff (shape : Balanced balanced) (known : balanced ∈ routes)
    (agreed : disagreement [] (allRequirements routes) = none) {path : Path} :
    crosspoint routes path = crosspoint routes balanced.register ↔
      ∃ out source, path = .mix out balanced.kind source ∧ anchor out = balanced.output.first ∧
        anchor source = balanced.source.first := by
  obtain ⟨oddOut, -⟩ := adjacent_pair shape.output
  obtain ⟨oddSource, -⟩ := adjacent_pair shape.source
  obtain ⟨outLink, sourceLink⟩ := shape.linked known agreed
  have own : crosspoint routes balanced.register =
      some (balanced.output.first, balanced.kind, balanced.source.first) := by
    unfold Route.register crosspoint
    dsimp only
    rw [(foldedChannel_eq_iff oddOut outLink).mpr (anchor_odd oddOut),
      (foldedChannel_eq_iff oddSource sourceLink).mpr (anchor_odd oddSource)]
  rw [own]
  constructor
  · intro same
    cases path with
    | mix out kind source =>
        obtain ⟨out_eq, rest⟩ := Prod.mk.inj (Option.some.inj same)
        obtain ⟨rfl, source_eq⟩ := Prod.mk.inj rest
        exact ⟨out, source, rfl, (foldedChannel_eq_iff oddOut outLink).mp out_eq,
          (foldedChannel_eq_iff oddSource sourceLink).mp source_eq⟩
    | _ => cases same
  · rintro ⟨out, source, rfl, out_eq, source_eq⟩
    unfold crosspoint
    dsimp only
    rw [(foldedChannel_eq_iff oddOut outLink).mpr out_eq,
      (foldedChannel_eq_iff oddSource sourceLink).mpr source_eq]

/-- What a route writes at a balanced crosspoint is its level and pan, or comes from an overlap. -/
theorem Balanced.written (shape : Balanced balanced) (known : balanced ∈ routes) (stated : balanced.pan ≠ 0)
    (agreed : disagreement [] (allRequirements routes) = none)
    (claims : ∀ first ∈ routes, first.pan ≠ 0 → ∀ second ∈ routes, first.cellKey = second.cellKey →
      first.SameValue second) {route : Route} (member : route ∈ routes) {message : Message}
    (written : message ∈ cellMessages route)
    (here : crosspoint routes message.path = crosspoint routes balanced.register) :
    message.args = balanced.value ∨
      Overlaps route balanced ∧ message.path = route.rightRegister ∧ message.args = route.rightValue := by
  obtain ⟨out, source, path, out_eq, source_eq⟩ := (shape.crosspoint_iff known agreed).mp here
  obtain ⟨oddOut, outPair⟩ := adjacent_pair shape.output
  obtain ⟨oddSource, sourcePair⟩ := adjacent_pair shape.source
  obtain ⟨outLink, sourceLink⟩ := shape.linked known agreed
  -- The pair of a route's first output is not linked where the route is mono or unlinked.
  have apart (first : anchor route.output.first = balanced.output.first) : route.outputLink.linked = true := by
    have declared := declaredLink_of_mem agreed (mem_allRequirements.mpr ⟨route, member, .inr rfl⟩)
    have same : route.outputLink.channel = balanced.output.first := first
    rw [same] at declared
    exact Option.some.inj (declared.symm.trans outLink)
  unfold cellMessages at written
  cases output : route.output with
  | mono own =>
      rw [output] at written
      obtain rfl := List.mem_singleton.mp written
      obtain ⟨rfl, -, -⟩ := Path.mix.inj path
      have linked := apart (by rw [output]; exact out_eq)
      simp [Route.outputLink, output, Channels.isPair] at linked
  | pair left right =>
      rw [output] at written
      dsimp only at written
      split at written
      next stereo =>
        obtain rfl := List.mem_singleton.mp written
        obtain ⟨rfl, kind, rfl⟩ := Path.mix.inj path
        refine .inl ?_
        have sourceWide : route.source.isPair = true := by rw [route.sameWidth, output]; rfl
        have key : balanced.cellKey = route.cellKey := by
          unfold Route.cellKey
          have linked : route.outputLink.linked = true := by simp [Route.outputLink, output, Channels.isPair, stereo]
          have linked' : balanced.outputLink.linked = true := by
            rw [Route.outputLink, outPair, shape.stereo]; rfl
          have wide' : balanced.sourceLink.linked = true := by rw [Route.sourceLink, sourcePair]; rfl
          rw [if_pos linked, if_pos linked', if_pos (show route.sourceLink.linked = true from sourceWide),
            if_pos wide', kind]
          show (anchor balanced.output.first, _, anchor balanced.source.first) = (anchor route.output.first, _, _)
          rw [anchor_odd oddOut, anchor_odd oddSource, output]
          exact Prod.ext out_eq.symm (Prod.ext rfl source_eq.symm)
        obtain ⟨level, pan⟩ := claims balanced known stated route member key
        unfold Route.value
        rw [level, pan]
        rfl
      next unlinked =>
        rcases List.mem_cons.mp written with rfl | last
        · obtain ⟨rfl, -, -⟩ := Path.mix.inj path
          have linked := apart (by rw [output]; exact out_eq)
          simp [Route.outputLink, unlinked] at linked
        · obtain rfl := List.mem_singleton.mp last
          obtain ⟨rfl, kind, rfl⟩ := Path.mix.inj path
          refine .inr ⟨⟨by rw [output]; rfl, by simpa using unlinked, ?_, kind, source_eq⟩, ?_, rfl⟩
          · rw [output]
            exact out_eq
          · unfold Route.rightRegister
            rw [output]
            rfl

end Fold

/-! ### Who owns a crosspoint -/

section Entries

variable {config : Config} {entries : List Entry}

/-- Every entry at the crosspoint of a balanced route holds the level and pan of that route, and there is one. -/
structure OwnsCrosspoint (routes : List Route) (entries : List Entry) (route : Route) : Prop where
  set : ∃ entry ∈ entries, crosspoint routes entry.path = crosspoint routes route.register
  own : ∀ entry ∈ entries, crosspoint routes entry.path = crosspoint routes route.register →
    entry.args = route.value

/-- In any order of the routes, what is asked of each balanced crosspoint is what its route states. -/
def OrderFree (config : Config) : Prop :=
  ∀ routes, routes.Perm config.routes → ∃ entries, desired (config.reordered routes) = .ok entries ∧
    ∀ route ∈ routes, route.pan ≠ 0 → OwnsCrosspoint routes entries route

/-- An overlap that does no harm: the very value of the balance, or a claim of the base that one of the desk
replaces. -/
def Harmless (routes : List Route) (split balanced : Route) : Prop :=
  split.rightValue = balanced.value ∨
    split.base = true ∧ ∃ other ∈ routes, other.base = false ∧ split.rightRegister ∈ mixPaths other

/-- Silence of the base is written beside a balanced crosspoint. -/
theorem Balanced.not_silent {balanced : Route} (shape : Balanced balanced) (known : balanced ∈ config.routes)
    (agreed : disagreement [] (allRequirements config.routes) = none) {entry : Entry}
    (silent : entry ∈ silentEntries config)
    (here : crosspoint config.routes entry.path = crosspoint config.routes balanced.register) : False := by
  obtain ⟨out, source, path, out_eq, source_eq⟩ := (shape.crosspoint_iff known agreed).mp here
  obtain ⟨outLink, sourceLink⟩ := shape.linked known agreed
  obtain ⟨at_cell, free⟩ := silentAt_iff.mp ⟨entry, silent, path⟩
  -- Silence is not written to the even channel of a linked pair.
  have even {family : Family} {channel left : ℕ} (same : anchor channel = left) (odd : left % 2 = 1)
      (linked : declaredLink config.routes family left = some true)
      (heard : ¬LinkedEven config.routes family channel) : channel = left := by
    unfold anchor at same
    split_ifs at same with odd'
    · exact same
    · refine absurd ⟨by omega, ?_⟩ heard
      rw [show pairLeft channel = left by unfold pairLeft; omega]
      exact linked
  obtain rfl := even out_eq (adjacent_pair shape.output).1 outLink at_cell.output
  obtain rfl := even source_eq (adjacent_pair shape.source).1 sourceLink at_cell.source
  refine free (mix_mem_keys.mpr ⟨balanced, known, mem_mixPaths_iff.mpr ⟨_, balanced.output.first_mem, ?_⟩⟩)
  unfold Route.target
  split_ifs <;> rfl

/-- A balanced route sets its own register. -/
theorem Balanced.register_mem {balanced : Route} (known : balanced ∈ config.routes)
    (asked : desired config = .ok entries) : ∃ entry ∈ entries, entry.path = balanced.register := by
  have inKeys : balanced.register ∈ (routeEntries config.routes).keys := by
    refine mix_mem_keys.mpr ⟨balanced, known, mem_mixPaths_iff.mpr ⟨_, balanced.output.first_mem, ?_⟩⟩
    unfold Route.target
    split_ifs <;> rfl
  obtain ⟨entry, held, path⟩ := List.mem_map.mp inKeys
  refine ⟨entry, (mem_desired_mix asked path).mpr (.inl ?_), path⟩
  show winner ((producedEntries config.routes).filter (·.path = .mix _ _ _)) = _
  rw [← routeEntries_get, Keyed.get?_eq_some]
  exact ⟨held, path⟩

/-- Where every overlap is harmless, the balanced crosspoints are owned. -/
theorem owns_of_harmless (valid : ∀ route ∈ config.routes, route.checkedPan = .ok route.pan)
    (accepted : validateRoutePan config.routes = .ok ()) (asked : desired config = .ok entries)
    (harmless : ∀ balanced ∈ config.routes, balanced.pan ≠ 0 → ∀ split ∈ config.routes,
      Overlaps split balanced → Harmless config.routes split balanced) {balanced : Route}
    (known : balanced ∈ config.routes) (stated : balanced.pan ≠ 0) : OwnsCrosspoint config.routes entries balanced := by
  have shape := Balanced.of_checked (valid balanced known) stated
  obtain ⟨agreed, claims⟩ :=
    (validateRoutePan_iff.mp accepted).resolve_left fun all => stated (all balanced known)
  have agreed := links_agree_iff.mpr agreed
  constructor
  · obtain ⟨entry, member, path⟩ := Balanced.register_mem known asked
    exact ⟨entry, member, congrArg (crosspoint config.routes) path⟩
  · intro entry member here
    obtain ⟨out, source, path, -, -⟩ := (shape.crosspoint_iff known agreed).mp here
    rcases (mem_desired_mix asked path).mp member with won | silent
    · have claimed := winner_mem won
      rw [mixClaims_eq] at claimed
      obtain ⟨route, inRoutes, claimed⟩ := List.mem_flatMap.mp claimed
      obtain ⟨message, written, samePath, rfl⟩ := mem_routeClaims.mp claimed
      rcases shape.written known stated agreed claims inRoutes written here with own | ⟨overlap, right, value⟩
      · exact own
      · rcases harmless balanced known stated route inRoutes overlap with same | ⟨base, other, inRoutes', desk, also⟩
        · exact value.trans same
        · have all := (winner_base won).mp base
          obtain ⟨theirs, inCells, theirPath⟩ := mem_mixPaths.mp also
          have claimed' : theirs.entry .mix other.base ∈ mixClaims config.routes out balanced.kind source := by
            rw [mixClaims_eq]
            refine List.mem_flatMap.mpr ⟨other, inRoutes', mem_routeClaims.mpr ⟨theirs, inCells, ?_, rfl⟩⟩
            exact (theirPath.trans right.symm).trans samePath
          have := all _ claimed'
          exact absurd (desk.symm.trans this) (by decide)
    · exact (shape.not_silent known agreed silent here).elim

/-- The last claim to its register an unlinked route makes is the one of its right output. -/
theorem right_last {split : Route} (pair : split.output.isPair = true) (unlinked : split.stereo = false) :
    ∃ before, routeClaims split.output.second split.kind split.source.first split =
      before ++ [⟨split.rightRegister, "fi", split.rightValue, .mix, split.base, true⟩] := by
  unfold routeClaims cellMessages
  cases output : split.output with
  | mono out => simp [output, Channels.isPair] at pair
  | pair left right =>
      refine ⟨([mixMessage left split.kind split.source.first (unlinkedLevel split.level) (-100)].filter
        (·.path = .mix right split.kind split.source.first)).map (·.entry .mix split.base), ?_⟩
      rw [unlinked]
      show List.map _ (List.filter _ ([_] ++ [_])) = _
      rw [List.filter_append, List.map_append]
      congr 1
      have mine : Channels.second (.pair left right) = right := rfl
      simp [mixMessage, Message.entry, Route.rightRegister, Route.rightValue, output, mine]

/-- An overlap that does harm is seen where its route is the last. -/
theorem harmless_of_free (valid : ∀ route ∈ config.routes, route.checkedPan = .ok route.pan)
    (accepted : validateRoutePan config.routes = .ok ()) (free : OrderFree config) {balanced split : Route}
    (known : balanced ∈ config.routes) (stated : balanced.pan ≠ 0) (known' : split ∈ config.routes)
    (overlap : Overlaps split balanced) : Harmless config.routes split balanced := by
  have shape := Balanced.of_checked (valid balanced known) stated
  have perm : (config.routes.erase split ++ [split]).Perm config.routes :=
    List.perm_append_comm.trans (List.perm_cons_erase known').symm
  have accepted' := validateRoutePan_perm perm accepted
  have inLast : balanced ∈ config.routes.erase split ++ [split] := perm.mem_iff.mpr known
  obtain ⟨entries, asked, owns⟩ := free _ perm
  obtain ⟨-, own⟩ := owns balanced inLast stated
  obtain ⟨agreed, -⟩ := (validateRoutePan_iff.mp accepted').resolve_left fun all => stated (all balanced inLast)
  have agreed := links_agree_iff.mpr agreed
  have here : crosspoint (config.routes.erase split ++ [split]) split.rightRegister =
      crosspoint (config.routes.erase split ++ [split]) balanced.register :=
    (shape.crosspoint_iff inLast agreed).mpr
      ⟨_, _, by rw [Route.rightRegister, overlap.kind], overlap.output, overlap.source⟩
  obtain ⟨before, last⟩ := right_last overlap.pair overlap.unlinked
  have claims : mixClaims (config.routes.erase split ++ [split]) split.output.second split.kind split.source.first =
      (config.routes.erase split).flatMap (routeClaims split.output.second split.kind split.source.first) ++ before
        ++ [⟨split.rightRegister, "fi", split.rightValue, .mix, split.base, true⟩] := by
    rw [mixClaims_eq, List.flatMap_append, List.flatMap_singleton, last, List.append_assoc]
  have won := congrArg winner claims
  rw [winner_append] at won
  split at won
  next outranked =>
    obtain ⟨base, held, holds, desk⟩ := outranked
    refine .inr ⟨base, ?_⟩
    have claimed : held ∈ mixClaims (config.routes.erase split ++ [split]) split.output.second split.kind
        split.source.first := winner_mem (won.trans holds)
    rw [mixClaims_eq] at claimed
    obtain ⟨other, inRoutes, claimed⟩ := List.mem_flatMap.mp claimed
    obtain ⟨message, written, path, rfl⟩ := mem_routeClaims.mp claimed
    exact ⟨other, perm.mem_iff.mp inRoutes, desk, mem_mixPaths.mpr ⟨message, written, path⟩⟩
  next =>
    exact .inl (own _ ((mem_desired_mix asked rfl).mpr (.inl won)) here)

/-- **Balanced crosspoints and the order of the routes.** Every order of an accepted set of routes asks the same of
every balanced crosspoint, what its own route states, exactly where the right output of no unlinked pair overlaps
the outputs of a balanced route of the same sources, harmless overlaps apart. -/
theorem balancedOrder (config : Config) (valid : ∀ route ∈ config.routes, route.checkedPan = .ok route.pan)
    (entries : List Entry) (asked : desired config = .ok entries) :
    OrderFree config ↔ ∀ balanced ∈ config.routes, balanced.pan ≠ 0 → ∀ split ∈ config.routes,
      Overlaps split balanced → Harmless config.routes split balanced := by
  have accepted : validateRoutePan config.routes = .ok () := by
    obtain ⟨⟨⟩, checked, -⟩ := bind_eq_ok.mp asked
    obtain ⟨⟨⟩, pans, -⟩ := bind_eq_ok.mp checked
    exact mapError_eq_ok.mp pans
  constructor
  · intro free balanced known stated split known' overlap
    exact harmless_of_free valid accepted free known stated known' overlap
  · intro harmless routes perm
    obtain ⟨others, asked'⟩ := desired_perm perm asked
    refine ⟨others, asked', fun route known stated => ?_⟩
    have same : ∀ {route}, route ∈ routes ↔ route ∈ config.routes := perm.mem_iff
    refine @owns_of_harmless (config.reordered routes) others (fun route member => valid route (same.mp member))
      (validateRoutePan_perm perm accepted) asked' ?_ _ known stated
    intro balanced inRoutes balances split inRoutes' overlap
    refine (harmless balanced (same.mp inRoutes) balances split (same.mp inRoutes') overlap).imp_right ?_
    rintro ⟨base, other, inRoutes, desk, also⟩
    exact ⟨base, other, same.mpr inRoutes, desk, also⟩

end Entries

instance (split balanced : Route) : Decidable (Overlaps split balanced) :=
  decidable_of_iff (split.output.isPair = true ∧ split.stereo = false ∧
    anchor split.output.second = balanced.output.first ∧ split.kind = balanced.kind ∧
    anchor split.source.first = balanced.source.first)
    ⟨fun ⟨pair, unlinked, output, kind, source⟩ => ⟨pair, unlinked, output, kind, source⟩,
      fun ⟨pair, unlinked, output, kind, source⟩ => ⟨pair, unlinked, output, kind, source⟩⟩

/-- A balanced pair beside an unlinked one. -/
def separatePairs : IniFile where
  sections :=
    [⟨"route:main", [("playback", "1/2"), ("output", "3/4"), ("pan", "50")], by decide⟩,
      ⟨"route:side", [("playback", "1/2"), ("output", "1/2"), ("stereo", "no")], by decide⟩]
  distinct := by decide

theorem balancedOrder_separatePairs : OrderFree (configOf separatePairs) := by
  have ⟨entries, asked⟩ : ∃ entries, desired (configOf separatePairs) = .ok entries := by
    cases asked : desired (configOf separatePairs) with
    | ok entries => exact ⟨entries, rfl⟩
    | error problem =>
        have given : (desired (configOf separatePairs)).toOption.isSome = true := by decide +kernel
        rw [asked] at given
        cases given
  refine (balancedOrder (configOf separatePairs) (by decide +kernel) entries asked).mpr ?_
  intro balanced known stated split known' overlap
  have apart : ∀ balanced ∈ (configOf separatePairs).routes, balanced.pan ≠ 0 →
      ∀ split ∈ (configOf separatePairs).routes, ¬Overlaps split balanced := by decide +kernel
  exact absurd overlap (apart balanced known stated split known')

/-- An unlinked pair whose right output is the left one of a balanced pair. -/
def crossedPairs : IniFile where
  sections :=
    [⟨"route:main", [("playback", "1/2"), ("output", "3/4"), ("pan", "50")], by decide⟩,
      ⟨"route:side", [("playback", "1/2"), ("output", "1/3"), ("stereo", "no")], by decide⟩]
  distinct := by decide

/-- What is asked of the crosspoint of output 3 and playback 1. -/
def askedOf (config : Config) : Option (List Args) :=
  (desired config).toOption.map fun entries =>
    (entries.filter (·.path = .mix 3 .playback 1)).map (·.args)

theorem crossedPairs_ordered :
    Accepted (configOf crossedPairs) ∧
      askedOf (configOf crossedPairs) = some [[.real (unlinkedLevel 0), .int 100]] ∧
      askedOf ((configOf crossedPairs).reordered (configOf crossedPairs).routes.reverse) =
        some [[.real 0, .int 50]] ∧
      ¬OrderFree (configOf crossedPairs) := by
  have last : askedOf (configOf crossedPairs) = some [[.real (unlinkedLevel 0), .int 100]] := by decide +kernel
  refine ⟨accepted_configOf (by decide +kernel), last, by decide +kernel, fun free => ?_⟩
  obtain ⟨entries, asked, owns⟩ := free _ (List.Perm.refl _)
  obtain ⟨main, known, stated, register, value⟩ : ∃ route ∈ (configOf crossedPairs).routes,
      route.pan ≠ 0 ∧ route.register = .mix 3 .playback 1 ∧ route.value = [.real 0, .int 50] := by decide +kernel
  obtain ⟨-, own⟩ := owns main known stated
  have found : (entries.filter (·.path = .mix 3 .playback 1)).map (·.args) =
      [[.real (unlinkedLevel 0), .int 100]] := by
    have asked : desired (configOf crossedPairs) = .ok entries := asked
    rw [askedOf, asked] at last
    exact Option.some.inj last
  obtain ⟨entry, member, args⟩ := List.mem_map.mp (found ▸ List.mem_singleton_self _)
  obtain ⟨member, path⟩ := List.mem_filter.mp member
  have same := own entry member (congrArg _ ((of_decide_eq_true path).trans register.symm))
  rw [args, value] at same
  simp at same

end OscmixDesk
