/-
**The columns of a released playback pair.**

A file that releases a mute has a route of the desk on every cell of both columns. So no route of
the base is from the pair (`released_desk`), and the write that stands for a cell in the desired
state is a route's of the desk that covers the cell (`released_cell`).
-/

import OscmixDesk.Proof.Links
import OscmixDesk.Proof.Mutes

namespace OscmixDesk

open Checks

/-- Whether a route is from a playback pair. -/
def FromPair (left : ℕ) (route : Route) : Prop :=
  left ∈ route.playback ∨ left + 1 ∈ route.playback

theorem mem_playback {route : Route} {channel : ℕ} :
    channel ∈ route.playback ↔ route.kind = .playback ∧ channel ∈ route.source.toList := by
  unfold Route.playback
  split
  · next kind => simp [kind]
  · next kind => simp [kind]

theorem FromPair.kind {left : ℕ} {route : Route} (own : FromPair left route) :
    route.kind = .playback := by
  rcases own with odd | even
  · exact (mem_playback.mp odd).1
  · exact (mem_playback.mp even).1

theorem fromPair_any {left : ℕ} {route : Route} :
    (route.playback.any fun source => decide (source = left) || decide (source = left + 1)) = true
      ↔ FromPair left route := by
  unfold FromPair
  rw [List.any_eq_true]
  constructor
  · rintro ⟨source, member, same⟩
    have cases : source = left ∨ source = left + 1 := by simpa using same
    rcases cases with rfl | rfl
    · exact Or.inl member
    · exact Or.inr member
  · rintro (member | member)
    · exact ⟨left, member, by simp⟩
    · exact ⟨left + 1, member, by simp⟩

/-- What a release needs: the declared words, both mutes, and the cells and links of every route
from the pair. -/
theorem released_iff {config : Config} {mutes : List (ℕ × ℤ)} {paths confirmed : List Path}
    {channel : ℕ} : released mutes paths confirmed (prerequisites config channel) = true ↔
      (lookupLast mutes (pairLeft channel) = some 0
        ∧ lookupLast mutes (pairLeft channel + 1) = some 0)
      ∧ (mutePath (pairLeft channel) ∈ paths ∧ mutePath (pairLeft channel + 1) ∈ paths)
      ∧ ∀ route ∈ config.routes, FromPair (pairLeft channel) route →
        (∀ path ∈ mixPaths route, path ∈ paths)
          ∧ ∀ path ∈ linkPaths route, path ∈ paths ∨ path ∈ confirmed := by
  have users (paths' : Route → List Path) (holds : Path → Prop) :
      (∀ path ∈ (config.routes.filter fun route => route.playback.any fun source =>
        decide (source = pairLeft channel) || decide (source = pairLeft channel + 1)).flatMap paths',
          holds path)
        ↔ ∀ route ∈ config.routes, FromPair (pairLeft channel) route →
          ∀ path ∈ paths' route, holds path := by
    simp only [List.mem_flatMap, List.mem_filter, fromPair_any]
    exact ⟨fun all route known own path member => all path ⟨route, ⟨known, own⟩, member⟩,
      fun all path ⟨route, ⟨known, own⟩, member⟩ => all route known own path member⟩
  unfold released prerequisites
  simp only [Bool.and_eq_true, decide_eq_true_eq, List.all_append, List.all_eq_true,
    Bool.or_eq_true, List.contains_iff_mem, List.forall_mem_cons, List.not_mem_nil, false_implies,
    implies_true, and_true]
  rw [users mixPaths (· ∈ paths), users linkPaths fun path => path ∈ paths ∨ path ∈ confirmed]
  constructor
  · rintro ⟨⟨words, mutes, cells⟩, links⟩
    exact ⟨words, mutes, fun route known own => ⟨cells route known own, links route known own⟩⟩
  · rintro ⟨words, mutes, columns⟩
    exact ⟨⟨words, mutes, fun route known own => (columns route known own).1⟩,
      fun route known own => (columns route known own).2⟩

theorem mem_routeCells {config : Config} {left out source : ℕ} :
    (out, source) ∈ routeCells config left ↔ (source = left ∨ source = left + 1)
      ∧ ∃ route ∈ config.routes, route.base = false ∧ source ∈ route.playback
        ∧ out ∈ route.output.toList := by
  unfold routeCells
  simp only [List.mem_flatMap, List.mem_filter, List.mem_map, Bool.not_eq_true', Bool.or_eq_true,
    decide_eq_true_eq, Prod.mk.injEq]
  constructor
  · rintro ⟨route, ⟨known, desk⟩, own, ⟨inSource, pair⟩, target, inOutput, rfl, rfl⟩
    exact ⟨pair, route, known, desk, inSource, inOutput⟩
  · rintro ⟨pair, route, known, desk, inSource, inOutput⟩
    exact ⟨route, ⟨known, desk⟩, source, ⟨inSource, pair⟩, out, inOutput, rfl, rfl⟩

theorem mem_takenCells {routes : List Route} {out source : ℕ} :
    (out, source) ∈ takenCells routes ↔
      ∃ route ∈ routes, source ∈ route.playback ∧ out ∈ route.output.toList := by
  unfold takenCells
  simp only [List.mem_flatMap, List.mem_map, Prod.mk.injEq]
  constructor
  · rintro ⟨route, known, own, inOutput, playback, inSource, rfl, rfl⟩
    exact ⟨route, known, inSource, inOutput⟩
  · rintro ⟨route, known, inSource, inOutput⟩
    exact ⟨route, known, out, inOutput, source, inSource, rfl, rfl⟩

/-- A diagonal of the base is from its own pair. -/
theorem Diagonal.playback {routes : List Route} {left : ℕ} {route : Route}
    (diagonal : Diagonal routes left route) :
    ∀ source ∈ route.playback, source = left ∨ source = left + 1 := by
  intro source member
  have inSource := (mem_playback.mp member).2
  cases diagonal with
  | mono channel own playback output free =>
      obtain rfl : source = channel := by simpa [monoDiagonal, Channels.toList] using inSource
      exact own
  | pair playback free => simpa [pairDiagonal, Channels.toList] using inSource

namespace Loaded

variable {config : Config} {declared added : List Route} {mirrors : List Mirror}

/-- On an output that no mirror writes, a cell of a released pair is a route's of the file. -/
theorem released_taken (loaded : Loaded config declared added mirrors) {channel out source : ℕ}
    (released : MutedAs config channel 0) {device : Device}
    (modelled : deviceForName config.deviceName = some device)
    (exists' : out ∈ device.channelsFor "output") (free : out ∉ mirroredOutputs mirrors)
    (own : source = pairLeft channel ∨ source = pairLeft channel + 1) :
    (out, source) ∈ takenCells declared := by
  obtain ⟨device', modelled', -, covered⟩ := loaded.muted_covered released
  obtain rfl : device = device' := Option.some.inj (modelled.symm.trans modelled')
  have cell : (out, source) ∈ columnCells device (pairLeft channel) := by
    unfold columnCells
    rw [List.mem_flatMap]
    refine ⟨out, exists', ?_⟩
    rcases own with rfl | rfl <;> simp
  obtain ⟨-, route, known, desk, inSource, inOutput⟩ := mem_routeCells.mp (covered _ cell)
  rcases loaded.mem_routes.mp known with original | ⟨mirror, member, original, -, same, rfl⟩
  · rcases List.mem_append.mp original with file | base
    · exact mem_takenCells.mpr ⟨route, file, inSource, inOutput⟩
    · rw [loaded.added_base base] at desk
      cases desk
  · exact absurd (mem_mirroredOutputs.mpr ⟨mirror, member, inOutput⟩) free

/-- No route of the base is from a released pair. -/
theorem released_desk (loaded : Loaded config declared added mirrors) {channel : ℕ}
    (released : MutedAs config channel 0) {route : Route} (member : route ∈ config.routes)
    (fromPair : FromPair (pairLeft channel) route) : route.base = false := by
  have ofAdded (original : Route) (inAdded : original ∈ added)
      (fromOriginal : FromPair (pairLeft channel) original) : False := by
    obtain ⟨device, modelled, -, left, odd, -, diagonal, free, free', -⟩ :=
      loaded.mem_added inAdded
    obtain ⟨inOutputs, oddLeft, inOutputs'⟩ := mem_oddChannels.mp odd
    have pair : left = pairLeft channel := by
      obtain ⟨-, -, -, oddPair⟩ := loaded.muted_channel released
      rcases fromOriginal with odd | even
      · rcases diagonal.playback _ odd with same | same <;> omega
      · rcases diagonal.playback _ even with same | same <;> omega
    subst pair
    have taken (out : ℕ) (outMember : out ∈ [pairLeft channel, pairLeft channel + 1]) (source : ℕ)
        (own : source = pairLeft channel ∨ source = pairLeft channel + 1) :
        (out, source) ∈ takenCells declared := by
      simp only [List.mem_cons, List.not_mem_nil, or_false] at outMember
      rcases outMember with rfl | rfl
      · exact loaded.released_taken released modelled inOutputs free own
      · exact loaded.released_taken released modelled inOutputs' free' own
    cases diagonal with
    | mono own isOwn playback output free =>
        exact free (taken own (by simpa using isOwn) own isOwn)
    | pair playback free =>
        exact free _ List.mem_cons_self _ List.mem_cons_self
          (taken _ List.mem_cons_self _ (Or.inl rfl))
  by_contra base
  have base : route.base = true := by simpa using base
  rcases loaded.mem_routes.mp member with original | ⟨mirror, known, original, inLayers, own, rfl⟩
  · rcases List.mem_append.mp original with file | inAdded
    · rw [loaded.declared_base file] at base
      cases base
    · exact ofAdded route inAdded fromPair
  · rcases List.mem_append.mp inLayers with file | inAdded
    · have copied : original.base = true := base
      rw [loaded.declared_base file] at copied
      cases copied
    · exact ofAdded original inAdded fromPair

end Loaded

/-- A register that a route of the desk sets is held by an entry of the desk. -/
theorem desk_winner {routes : List Route} {route : Route} (known : route ∈ routes)
    (desk : route.base = false) {path : Path}
    (produced : path ∈ linkPaths route ∨ path ∈ mixPaths route) :
    ∃ entry ∈ (routeEntries routes).items, entry.path = path ∧ entry.base = false := by
  have ⟨own, inProduced, same, ownBase⟩ : ∃ own ∈ producedEntries routes,
      own.path = path ∧ own.base = false := by
    rcases produced with link | mix
    · obtain ⟨message, member, rfl⟩ := List.mem_map.mp link
      exact ⟨_, (mem_producedEntries _).mpr ⟨route, known, Or.inl ⟨message, member, rfl⟩⟩, rfl, desk⟩
    · obtain ⟨message, member, rfl⟩ := mem_mixPaths.mp mix
      exact ⟨_, (mem_producedEntries _).mpr
        ⟨route, known, Or.inr ⟨message, List.mem_append_left _ member, rfl⟩⟩, rfl, desk⟩
  have inKeys : path ∈ (routeEntries routes).keys := (mem_keys _ _).mpr ⟨own, inProduced, same⟩
  obtain ⟨entry, held, entryPath⟩ := List.mem_map.mp inKeys
  have won := ((routeEntries routes).get?_eq_some path entry).mpr ⟨held, entryPath⟩
  rw [routeEntries_get] at won
  refine ⟨entry, held, entryPath, ?_⟩
  by_contra base
  have all := (winner_base won).mp (by simpa using base)
  have := all own (List.mem_filter.mpr ⟨inProduced, by simpa using same⟩)
  rw [ownBase] at this
  cases this

/-! ### The write that covers a cell -/

/-- An adjacent pair is its odd channel and the even one after it. -/
theorem adjacent_pair {channels : Channels} (adjacent : channels.adjacent = true) :
    channels.first % 2 = 1 ∧ channels = .pair channels.first (channels.first + 1) := by
  cases channels with
  | mono channel => cases adjacent
  | pair left right =>
      have holds : left % 2 = 1 ∧ right = left + 1 := by simpa [Channels.adjacent] using adjacent
      exact ⟨holds.1, by simp [Channels.first, holds.2]⟩

theorem mono_of_not_pair {channels : Channels} (mono : channels.isPair = false) :
    channels = .mono channels.first := by
  cases channels with
  | mono channel => rfl
  | pair left right => cases mono

/-- A playback route that the ownership check accepts has adjacent pairs. -/
theorem validPlayback_adjacent {routes : List Route} {device : Device}
    (valid : validateRouteLinks routes device = .ok ()) {route : Route} (member : route ∈ routes)
    (playback : route.kind = .playback) :
    (route.source.isPair = true → route.source.adjacent = true)
      ∧ (route.output.isPair = true → route.output.adjacent = true) := by
  unfold validateRouteLinks at valid
  split at valid
  · cases valid
  next none =>
  have no := List.find?_eq_none.mp none route member
  have own : validPlaybackRoute device route = true := by simpa [playback] using no
  unfold validPlaybackRoute at own
  simp only [Bool.and_eq_true, Bool.or_eq_true, Bool.not_eq_true'] at own
  obtain ⟨⟨⟨⟨-, source⟩, -, output⟩, -⟩, -⟩ := own
  constructor
  · intro pair
    rcases source with mono | adjacent
    · rw [pair] at mono
      cases mono
    · exact adjacent
  · intro pair
    rcases output with mono | adjacent
    · rw [pair] at mono
      cases mono
    · exact adjacent

/-- Whether the two outputs of a side contain an output, by its shape. -/
theorem mem_of_adjacent {channels : Channels} {out : ℕ}
    (shape : channels.isPair = true → channels.adjacent = true)
    (member : out ∈ channels.toList) :
    anchor out = anchor channels.first ∧ (out % 2 = 1 → out = channels.first) := by
  cases pair : channels.isPair with
  | false =>
      rw [mono_of_not_pair pair] at member
      obtain rfl : out = channels.first := by simpa [Channels.toList] using member
      exact ⟨rfl, fun _ => rfl⟩
  | true =>
      obtain ⟨odd, same⟩ := adjacent_pair (shape pair)
      rw [same] at member
      have cases : out = channels.first ∨ out = channels.first + 1 := by
        simpa [Channels.toList] using member
      unfold anchor
      rcases cases with rfl | rfl
      · exact ⟨rfl, fun _ => rfl⟩
      · refine ⟨?_, fun _ => by omega⟩
        rw [if_neg (by omega), if_pos odd]
        omega

namespace Loaded

variable {config : Config} {declared added : List Route} {mirrors : List Mirror}

/-- Two routes from one playback channel that write one register cover the same cells. -/
theorem same_cells (loaded : Loaded config declared added mirrors) {first second : Route}
    (member : first ∈ config.routes) (member' : second ∈ config.routes)
    (sourceShape : first.source.isPair = true → first.source.adjacent = true)
    (sourceShape' : second.source.isPair = true → second.source.adjacent = true)
    (outputShape : first.output.isPair = true → first.output.adjacent = true)
    (outputShape' : second.output.isPair = true → second.output.adjacent = true)
    (sameKind : first.kind = second.kind) (sameSource : first.source.first = second.source.first)
    {out out' : ℕ} (inOutput : out ∈ first.output.toList) (inOutput' : out' ∈ second.output.toList)
    (sameTarget : first.target out = second.target out') :
    first.source = second.source ∧ out ∈ second.output.toList
      ∧ second.target out = first.target out := by
  have sourceFlag : first.source.isPair = second.source.isPair := by
    have one := loaded.sourceLink_declared member
    have two := loaded.sourceLink_declared member'
    rw [sameKind, sameSource] at one
    exact Option.some.inj (one.symm.trans two)
  have outputFlag (same : anchor first.output.first = anchor second.output.first) :
      (first.output.isPair && first.stereo) = (second.output.isPair && second.stereo) := by
    have one := loaded.outputLink_declared member
    have two := loaded.outputLink_declared member'
    rw [same] at one
    exact Option.some.inj (one.symm.trans two)
  refine ⟨?_, ?_⟩
  · cases pair : first.source.isPair with
    | false =>
        have one := mono_of_not_pair pair
        have two := mono_of_not_pair (sourceFlag.symm.trans pair)
        exact one.trans ((congrArg Channels.mono sameSource).trans two.symm)
    | true =>
        have one := (adjacent_pair (sourceShape pair)).2
        have pair' := sourceFlag.symm.trans pair
        have two := (adjacent_pair (sourceShape' pair')).2
        rw [sameSource] at one
        exact one.trans two.symm
  · obtain ⟨anchored, odd⟩ := mem_of_adjacent outputShape inOutput
    obtain ⟨anchored', odd'⟩ := mem_of_adjacent outputShape' inOutput'
    unfold Route.target at sameTarget ⊢
    by_cases linked : (first.output.isPair && first.stereo) = true
    · have pair := (Bool.and_eq_true_iff.mp linked).1
      obtain ⟨oddLeft, shape⟩ := adjacent_pair (outputShape pair)
      rw [if_pos linked] at sameTarget
      have linked' : (second.output.isPair && second.stereo) = true := by
        by_contra apart
        rw [if_neg apart] at sameTarget
        have same : anchor first.output.first = anchor second.output.first := by
          rw [sameTarget, anchored']
        exact apart (outputFlag same ▸ linked)
      rw [if_pos linked'] at sameTarget
      have shape' := (adjacent_pair (outputShape' (Bool.and_eq_true_iff.mp linked').1)).2
      rw [if_pos linked, if_pos linked']
      refine ⟨?_, sameTarget.symm⟩
      rw [shape']
      rw [shape, sameTarget] at inOutput
      exact inOutput
    · rw [if_neg linked] at sameTarget
      by_cases linked' : (second.output.isPair && second.stereo) = true
      · exfalso
        rw [if_pos linked'] at sameTarget
        have same : anchor first.output.first = anchor second.output.first := by
          rw [← anchored, sameTarget]
        exact linked (outputFlag same ▸ linked')
      · rw [if_neg linked'] at sameTarget
        rw [if_neg linked, if_neg linked']
        exact ⟨sameTarget ▸ inOutput', rfl⟩

/-- The write that stands for a cell of a released pair is a message of a route of the desk that
covers the cell. -/
theorem released_cell (loaded : Loaded config declared added mirrors) {channel out source : ℕ}
    (released : MutedAs config channel 0) {device : Device}
    (modelled : deviceForName config.deviceName = some device)
    (cell : (out, source) ∈ columnCells device (pairLeft channel)) :
    ∃ route ∈ config.routes, route.base = false ∧ FromPair (pairLeft channel) route
      ∧ source ∈ route.playback ∧ out ∈ route.output.toList
      ∧ ∃ message ∈ cellMessages route,
        message.path = .mix (route.target out) .playback route.source.first
          ∧ message.entry .mix false ∈ (routeEntries config.routes).items := by
  obtain ⟨device', modelled', links, covered⟩ := loaded.muted_covered released
  have sameDevice : device' = device := Option.some.inj (modelled'.symm.trans modelled)
  subst sameDevice
  obtain ⟨own, route, known, desk, inSource, inOutput⟩ := mem_routeCells.mp (covered _ cell)
  obtain ⟨kind, inSources⟩ := mem_playback.mp inSource
  -- The register of the cell, and the entry that won it.
  have needs : Path.mix (route.target out) .playback route.source.first ∈ mixPaths route :=
    mem_mixPaths_iff.mpr ⟨out, inOutput, by rw [kind]⟩
  obtain ⟨entry, routed, entryPath, entryDesk⟩ := desk_winner known desk (Or.inr needs)
  obtain ⟨winner, inRoutes, shape⟩ := (mem_producedEntries _).mp (mem_produced _ routed)
  have ⟨message, inMix, same⟩ : ∃ message ∈ mixMessages winner,
      entry = message.entry .mix winner.base := by
    rcases shape with ⟨message, link, rfl⟩ | mix
    · rcases mem_linkMessages.mp link with rfl | rfl <;> cases entryPath
    · exact mix
  subst same
  have winnerDesk : winner.base = false := entryDesk
  have messagePath : message.path = .mix (route.target out) .playback route.source.first := entryPath
  have inCells : message ∈ cellMessages winner := by
    rcases List.mem_append.mp inMix with inCells | volume
    · exact inCells
    · obtain ⟨_, -, _, -, rfl⟩ := mem_volumeMessages.mp volume
      cases messagePath
  obtain ⟨out', inOutput', target⟩ := mem_cellPaths.mp (List.mem_map_of_mem inCells)
  rw [messagePath] at target
  obtain ⟨sameTarget, winnerKind, sameSource⟩ := Path.mix.inj target
  -- Both routes see the pairs alike, so the winner covers the cell as well.
  have shapes := validPlayback_adjacent links known kind
  have shapes' := validPlayback_adjacent links inRoutes winnerKind.symm
  obtain ⟨sources, outputs, targets⟩ := loaded.same_cells known inRoutes shapes.1 shapes'.1 shapes.2
    shapes'.2 (kind.trans winnerKind) sameSource inOutput inOutput' sameTarget
  have inWinner : source ∈ winner.playback :=
    mem_playback.mpr ⟨winnerKind.symm, sources ▸ inSources⟩
  have fromPair : FromPair (pairLeft channel) winner := by
    rcases own with rfl | rfl
    · exact Or.inl inWinner
    · exact Or.inr inWinner
  refine ⟨winner, inRoutes, winnerDesk, fromPair, inWinner, outputs, message, inCells, ?_, ?_⟩
  · rw [messagePath, targets, sameSource]
  · rw [← winnerDesk]
    exact routed

end Loaded

end OscmixDesk
