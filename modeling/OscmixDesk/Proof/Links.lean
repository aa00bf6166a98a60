/-
**The links the routes agree on.**

A pair's link belongs to the hardware, so the loader refuses routes that disagree on one
(`disagreement_none`). What one route states about a pair is then what the whole configuration
declares (`declaredLink_of_route`), and the link's entry carries it.
-/

import Mathlib.Data.List.Pairwise
import OscmixDesk.Proof.Layers

namespace OscmixDesk

/-- Two words on one pair. -/
def LinkRequirement.Agrees (first second : LinkRequirement) : Prop :=
  first.family = second.family → first.channel = second.channel → first.linked = second.linked

theorem disagreement_none {seen rest : List LinkRequirement}
    (none : disagreement seen rest = none) :
    (∀ first ∈ seen, ∀ second ∈ rest, first.Agrees second)
      ∧ rest.Pairwise fun first second => first.Agrees second := by
  induction rest generalizing seen with
  | nil => simp
  | cons requirement rest ih =>
      unfold disagreement at none
      split at none
      · cases none
      next agrees =>
      obtain ⟨before, after⟩ := ih none
      have here : ∀ first ∈ seen, first.Agrees requirement := by
        intro first member family channel
        have no := List.any_eq_false.mp (Bool.not_eq_true _ ▸ agrees) first member
        simpa [family, channel] using no
      refine ⟨?_, List.pairwise_cons.mpr ⟨fun second member => ?_, after⟩⟩
      · intro first member second later
        rcases List.mem_cons.mp later with rfl | later
        · exact here first member
        · exact before first (List.mem_append_left _ member) second later
      · exact before requirement (by simp) second member

/-- Where no route disagrees with another, two words on one pair are equal. -/
theorem requirements_agree {routes : List Route}
    (none : disagreement [] (allRequirements routes) = none) {first second : LinkRequirement}
    (member : first ∈ allRequirements routes) (member' : second ∈ allRequirements routes) :
    first.Agrees second := by
  have pairs := (disagreement_none none).2
  have symmetric : Std.Symm fun first second : LinkRequirement => first.Agrees second :=
    ⟨fun one two agrees family channel => (agrees family.symm channel.symm).symm⟩
  by_cases same : first = second
  · subst same
    exact fun _ _ => rfl
  · exact pairs.forall member member' same

theorem mem_allRequirements {routes : List Route} {requirement : LinkRequirement} :
    requirement ∈ allRequirements routes
      ↔ ∃ route ∈ routes, requirement = route.sourceLink ∨ requirement = route.outputLink := by
  simp [allRequirements, Route.linkRequirements]

/-- A declared link is a word of some route. -/
theorem declaredLink_eq_some {routes : List Route} {family : Family} {channel : ℕ} {linked : Bool}
    (declares : declaredLink routes family channel = some linked) :
    ⟨family, channel, linked⟩ ∈ allRequirements routes := by
  unfold declaredLink at declares
  obtain ⟨requirement, found, same⟩ := Option.map_eq_some_iff.mp declares
  have holds := List.find?_some found
  have member := List.mem_reverse.mp (List.mem_of_find?_eq_some found)
  simp only [Bool.and_eq_true, decide_eq_true_eq] at holds
  obtain ⟨rfl, rfl⟩ := holds
  subst same
  exact member

/-- A pair that some route states has a declared link. -/
theorem declaredLink_isSome {routes : List Route} {requirement : LinkRequirement}
    (member : requirement ∈ allRequirements routes) :
    (declaredLink routes requirement.family requirement.channel).isSome := by
  unfold declaredLink
  rw [Option.isSome_map, List.find?_isSome]
  exact ⟨requirement, List.mem_reverse.mpr member, by simp⟩

/-- Where the routes agree, what one states about a pair is what they declare. -/
theorem declaredLink_of_mem {routes : List Route}
    (none : disagreement [] (allRequirements routes) = none) {requirement : LinkRequirement}
    (member : requirement ∈ allRequirements routes) :
    declaredLink routes requirement.family requirement.channel = some requirement.linked := by
  obtain ⟨linked, declares⟩ := Option.isSome_iff_exists.mp (declaredLink_isSome member)
  have agrees := requirements_agree none (declaredLink_eq_some declares) member
  rw [declares]
  exact congrArg some (agrees rfl rfl)

namespace Loaded

variable {config : Config} {declared added : List Route} {mirrors : List Mirror}

/-- What a route states about its source's pair is declared. -/
theorem sourceLink_declared (loaded : Loaded config declared added mirrors) {route : Route}
    (member : route ∈ config.routes) :
    declaredLink config.routes route.kind.family (anchor route.source.first)
      = some route.source.isPair :=
  declaredLink_of_mem loaded.linksAgree
    (mem_allRequirements.mpr ⟨route, member, Or.inl rfl⟩ : route.sourceLink ∈ _)

/-- What a route states about its outputs' pair is declared. -/
theorem outputLink_declared (loaded : Loaded config declared added mirrors) {route : Route}
    (member : route ∈ config.routes) :
    declaredLink config.routes .output (anchor route.output.first)
      = some (route.output.isPair && route.stereo) :=
  declaredLink_of_mem loaded.linksAgree
    (mem_allRequirements.mpr ⟨route, member, Or.inr rfl⟩ : route.outputLink ∈ _)

end Loaded

end OscmixDesk
