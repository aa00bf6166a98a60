/-
**The registers the routes set.**

The routes' messages are put into a map one after another (`claim`); what the map holds afterwards is
described here without the loop: its keys are the paths the routes produce, and the entry of a path
is the last one a route of the desk produced for it, or the last one of all if only the base's did.
-/

import Mathlib.Data.List.Induction
import OscmixDesk.Proof.Acceptance

namespace OscmixDesk

/-! ### The loop -/

/-- The entries put into the map one after another. -/
def claimAll (entries : List Entry) : Keyed Entry.path :=
  entries.foldl claim .empty

theorem claimAll_append (entries : List Entry) (entry : Entry) :
    claimAll (entries ++ [entry]) = claim (claimAll entries) entry := by
  simp [claimAll, List.foldl_append]

/-- The entry that stands for a list of claims to one register: the last of the desk's, or the last
of all. -/
def winner (claims : List Entry) : Option Entry :=
  (claims.filter (!·.base)).getLast?.or claims.getLast?

theorem winner_eq_none {claims : List Entry} : winner claims = none ↔ claims = [] := by
  unfold winner
  rw [Option.or_eq_none_iff, List.getLast?_eq_none_iff, List.getLast?_eq_none_iff]
  exact ⟨And.right, fun empty => ⟨by rw [empty, List.filter_nil], empty⟩⟩

theorem winner_mem {claims : List Entry} {entry : Entry} (won : winner claims = some entry) :
    entry ∈ claims := by
  unfold winner at won
  rcases Option.or_eq_some_iff.mp won with own | ⟨-, last⟩
  · exact (List.mem_filter.mp (List.mem_of_getLast? own)).1
  · exact List.mem_of_getLast? last

/-- A winner of the base means that only the base claims the register. -/
theorem winner_base {claims : List Entry} {entry : Entry} (won : winner claims = some entry) :
    entry.base = true ↔ ∀ other ∈ claims, other.base = true := by
  constructor
  · intro base other member
    by_contra own
    have some : other ∈ claims.filter (!·.base) := List.mem_filter.mpr ⟨member, by simpa using own⟩
    unfold winner at won
    rcases Option.or_eq_some_iff.mp won with last | ⟨none, -⟩
    · have := (List.mem_filter.mp (List.mem_of_getLast? last)).2
      simp [base] at this
    · rw [List.getLast?_eq_none_iff] at none
      rw [none] at some
      cases some
  · intro all
    exact all entry (winner_mem won)

theorem winner_append {claims : List Entry} {entry : Entry} :
    winner (claims ++ [entry]) =
      if entry.base ∧ ∃ held, winner claims = some held ∧ held.base = false then winner claims
      else some entry := by
  by_cases base : entry.base = true
  · cases won : winner claims with
    | none =>
        rw [winner_eq_none] at won
        subst won
        simp [winner, base]
    | some held =>
        have filtered : (claims ++ [entry]).filter (!·.base) = claims.filter (!·.base) := by
          simp [List.filter_append, base]
        cases own : held.base with
        | true =>
            have all := (winner_base won).mp own
            have none : claims.filter (!·.base) = [] := by
              rw [List.filter_eq_nil_iff]
              intro other member
              simp [all other member]
            simp [winner, filtered, none, own]
        | false =>
            have last : (claims.filter (!·.base)).getLast? = some held := by
              unfold winner at won
              rcases Option.or_eq_some_iff.mp won with last | ⟨none, last⟩
              · exact last
              · rw [List.getLast?_eq_none_iff, List.filter_eq_nil_iff] at none
                have := none held (List.mem_of_getLast? last)
                simp [own] at this
            simp [winner, filtered, last, base, own]
  · simp [winner, List.filter_append, base]

/-- The map holds, for every path, the winner of the claims to it. -/
theorem claimAll_get (entries : List Entry) (path : Path) :
    (claimAll entries).get? path = winner (entries.filter (·.path = path)) := by
  induction entries using List.reverseRecOn with
  | nil => rfl
  | append_singleton entries entry ih =>
      rw [claimAll_append, List.filter_append]
      unfold claim
      by_cases here : entry.path = path
      · have own : [entry].filter (·.path = path) = [entry] := by simp [here]
        rw [own, winner_append, ← ih, here]
        cases held : (claimAll entries).get? path with
        | none => simp [Keyed.get?_put, here]
        | some first =>
            by_cases desk : first.base = false <;> by_cases base : entry.base = true <;>
              simp [Keyed.get?_put, here, held, desk, base]
      · have none : [entry].filter (·.path = path) = [] := by simp [here]
        have elsewhere : ¬ path = entry.path := fun equal => here equal.symm
        rw [none, List.append_nil, ← ih]
        split
        · rfl
        · rw [Keyed.get?_put, if_neg elsewhere]

/-! ### What the routes set -/

section Routes

variable (routes : List Route)

theorem routeEntries_get (path : Path) :
    (routeEntries routes).get? path
      = winner ((producedEntries routes).filter (·.path = path)) :=
  claimAll_get _ path

/-- An entry of the routes is one that a route produced. -/
theorem mem_produced {entry : Entry} (member : entry ∈ (routeEntries routes).items) :
    entry ∈ producedEntries routes := by
  have held := ((routeEntries routes).get?_eq_some entry.path entry).mpr ⟨member, rfl⟩
  rw [routeEntries_get] at held
  exact (List.mem_filter.mp (winner_mem held)).1

/-- The routes set exactly the paths they produce. -/
theorem mem_keys (path : Path) :
    path ∈ (routeEntries routes).keys ↔ ∃ entry ∈ producedEntries routes, entry.path = path := by
  rw [← not_iff_not, ← Keyed.get?_eq_none, routeEntries_get, winner_eq_none,
    List.filter_eq_nil_iff]
  simp

/-- Sending order only permutes the entries. -/
theorem orderedEntries_perm : (orderedEntries routes).Perm (routeEntries routes).items :=
  List.perm_insertionSort _ _

theorem mem_ordered {entry : Entry} :
    entry ∈ orderedEntries routes ↔ entry ∈ (routeEntries routes).items :=
  (orderedEntries_perm routes).mem_iff

theorem orderedEntries_distinct : ((orderedEntries routes).map (·.path)).Nodup :=
  ((orderedEntries_perm routes).map _).nodup_iff.mpr (routeEntries routes).distinct

/-- An entry that a route produces is a link or a write of its mix. -/
theorem mem_producedEntries {entry : Entry} :
    entry ∈ producedEntries routes ↔
      ∃ route ∈ routes, (∃ message ∈ linkMessages route, entry = message.entry .link route.base)
        ∨ ∃ message ∈ mixMessages route, entry = message.entry .mix route.base := by
  unfold producedEntries
  simp only [List.mem_append, List.mem_flatMap, List.mem_map]
  constructor
  · rintro (⟨route, known, message, member, rfl⟩ | ⟨route, known, message, member, rfl⟩)
    · exact ⟨route, known, Or.inl ⟨message, member, rfl⟩⟩
    · exact ⟨route, known, Or.inr ⟨message, member, rfl⟩⟩
  · rintro ⟨route, known, ⟨message, member, rfl⟩ | ⟨message, member, rfl⟩⟩
    · exact Or.inl ⟨route, known, message, member, rfl⟩
    · exact Or.inr ⟨route, known, message, member, rfl⟩

end Routes

/-! ### The messages of one route -/

/-- The links of a route are its two requirements. -/
theorem mem_linkMessages {route : Route} {message : Message} :
    message ∈ linkMessages route ↔
      message = ⟨.link route.kind.family route.sourceLink.channel, "i",
          [boolArg route.source.isPair]⟩
        ∨ message = ⟨.link .output route.outputLink.channel, "i",
          [boolArg (route.output.isPair && route.stereo)]⟩ := by
  simp [linkMessages, Route.linkRequirements, Route.sourceLink, Route.outputLink]

/-- A cell of a route is a crosspoint of one of its outputs with its first source. -/
theorem mem_cellMessages {route : Route} {message : Message}
    (member : message ∈ cellMessages route) :
    ∃ out ∈ route.output.toList, ∃ level pan,
      message = mixMessage out route.kind route.source.first level pan := by
  unfold cellMessages at member
  cases output : route.output with
  | mono out =>
      simp only [output, List.mem_singleton] at member
      exact ⟨out, by simp [Channels.toList], _, _, member⟩
  | pair left right =>
      simp only [output] at member
      split at member
      · rw [List.mem_singleton] at member
        exact ⟨left, by simp [Channels.toList], _, _, member⟩
      · rcases List.mem_cons.mp member with rfl | later
        · exact ⟨left, by simp [Channels.toList], _, _, rfl⟩
        · rw [List.mem_singleton] at later
          exact ⟨right, by simp [Channels.toList], _, _, later⟩

/-- A fader of a route is one of its outputs at the route's volume. -/
theorem mem_volumeMessages {route : Route} {message : Message} :
    message ∈ volumeMessages route ↔ ∃ volume, route.volume = some volume
      ∧ ∃ out ∈ route.output.toList, message = ⟨.volume out, "f", [.real volume]⟩ := by
  unfold volumeMessages
  cases route.volume with
  | none => simp
  | some volume => simp [eq_comm]

/-- The matrix registers of a route are those of its cells. -/
theorem mem_mixPaths {route : Route} {path : Path} :
    path ∈ mixPaths route ↔ ∃ message ∈ cellMessages route, message.path = path := by
  unfold mixPaths mixMessages
  rw [List.mem_filter, List.mem_map]
  constructor
  · rintro ⟨⟨message, member, rfl⟩, matrix⟩
    rcases List.mem_append.mp member with cell | volume
    · exact ⟨message, cell, rfl⟩
    · obtain ⟨_, -, out, -, rfl⟩ := mem_volumeMessages.mp volume
      cases matrix
  · rintro ⟨message, cell, rfl⟩
    obtain ⟨out, -, level, pan, rfl⟩ := mem_cellMessages cell
    exact ⟨⟨_, List.mem_append_left _ cell, rfl⟩, rfl⟩

/-- The output a cell of a route is addressed at: the left one of a linked pair. -/
def Route.target (route : Route) (out : ℕ) : ℕ :=
  if route.output.isPair && route.stereo then route.output.first else out

/-- The cells of a route, one for each of its outputs. -/
theorem mem_cellPaths {route : Route} {path : Path} :
    path ∈ (cellMessages route).map (·.path) ↔ ∃ out ∈ route.output.toList,
      path = .mix (route.target out) route.kind route.source.first := by
  unfold cellMessages Route.target
  cases route.output with
  | mono own => simp [Channels.toList, Channels.isPair, mixMessage]
  | pair left right =>
      cases route.stereo with
      | true => simp [Channels.toList, Channels.isPair, Channels.first, mixMessage]
      | false => simp [Channels.toList, Channels.isPair, mixMessage]

/-- The matrix registers of a route, one for each of its outputs. -/
theorem mem_mixPaths_iff {route : Route} {path : Path} :
    path ∈ mixPaths route ↔ ∃ out ∈ route.output.toList,
      path = .mix (route.target out) route.kind route.source.first := by
  rw [mem_mixPaths, ← mem_cellPaths, List.mem_map]

end OscmixDesk
