/-
**One sink for each pair of outputs, and its names.**

The routes that get a sink are the first of each pair (`foldl_choose`), so a file has one sink for each pair that a
route of the file feeds. A node's name keeps of a route's name only what it is spelled as (`Spelled`), and the node
on the device's side has a suffix; so the names in a file are distinct exactly where no two of its routes are
spelled alike, nor one as another one with the suffix (`distinctSinks_iff`).
-/

import Mathlib.Data.List.Nodup
import OscmixDesk.Foundation.Checks
import OscmixDesk.Model.Pipewire
import OscmixDesk.Proof.Acceptance

set_option maxRecDepth 100000

namespace OscmixDesk.Pipewire

open Checks

/-! ### The first route of each pair -/

/-- The route is the first one that feeds its outputs. -/
def Leads (routes : List Route) (route : Route) : Prop :=
  ∃ before after, routes = before ++ route :: after ∧ feeds route = true
    ∧ ∀ other ∈ before, feeds other = true → other.output ≠ route.output

/-- The chosen routes lead, and every pair that is fed has one. -/
structure Chose (routes : List Route) (pairRoutes : List Route) : Prop where
  distinct : (pairRoutes.map (·.output)).Nodup
  leads : ∀ route, route ∈ pairRoutes ↔ Leads routes route
  fed : ∀ pair, pair ∈ pairRoutes.map (·.output) ↔ ∃ route ∈ routes, feeds route = true ∧ route.output = pair

theorem leads_append {routes : List Route} {last route : Route} : Leads (routes ++ [last]) route ↔
    Leads routes route ∨ (route = last ∧ feeds last = true
      ∧ ∀ other ∈ routes, feeds other = true → other.output ≠ last.output) := by
  constructor
  · rintro ⟨before, after, split, feeds', first⟩
    rcases List.eq_nil_or_concat after with rfl | ⟨rest, final, rfl⟩
    · obtain ⟨rfl, same⟩ := List.append_inj' split rfl
      obtain rfl := List.singleton_inj.mp same
      exact Or.inr ⟨rfl, feeds', first⟩
    · rw [List.concat_eq_append, ← List.cons_append, ← List.append_assoc] at split
      exact Or.inl ⟨before, rest, (List.append_inj' split rfl).1, feeds', first⟩
  · rintro (⟨before, after, rfl, feeds', first⟩ | ⟨rfl, feeds', first⟩)
    · exact ⟨before, after ++ [last], by simp, feeds', first⟩
    · exact ⟨routes, [], rfl, feeds', first⟩

/-- One more route: it is chosen where it feeds a pair that no route before it feeds. -/
theorem Chose.step {routes : List Route} {chosen : Chosen} (chose : Chose routes chosen.pairRoutes) (route : Route) :
    Chose (routes ++ [route]) (choose chosen route).pairRoutes := by
  by_cases feeds' : feeds route = true
  · have taken (kept : Route) (found : chosen.pairRoutes.find? (·.output = route.output) = some kept) :
        ∃ other ∈ routes, feeds other = true ∧ other.output = route.output := by
      have same : kept.output = route.output := by simpa using List.find?_some found
      exact (chose.fed route.output).mp (same ▸ List.mem_map_of_mem (List.mem_of_find?_eq_some found))
    unfold choose
    rw [feeds', Bool.not_true, if_neg Bool.false_ne_true]
    cases found : chosen.pairRoutes.find? (·.output = route.output) with
    | some kept =>
        obtain ⟨other, known, feedsOther, same⟩ := taken kept found
        refine ⟨chose.distinct, fun own => ?_, fun pair => ?_⟩
        · rw [chose.leads, leads_append]
          exact ⟨Or.inl, fun leads => leads.resolve_right fun last => last.2.2 other known feedsOther same⟩
        · rw [chose.fed]
          constructor
          · rintro ⟨own, member, holds⟩
            exact ⟨own, List.mem_append_left _ member, holds⟩
          · rintro ⟨own, member, feedsOwn, rfl⟩
            rcases List.mem_append.mp member with earlier | now
            · exact ⟨own, earlier, feedsOwn, rfl⟩
            · rw [List.mem_singleton.mp now]
              exact ⟨other, known, feedsOther, same⟩
    | none =>
        have fresh : route.output ∉ chosen.pairRoutes.map (·.output) := by
          intro member
          obtain ⟨own, known, same⟩ := List.mem_map.mp member
          simpa [same] using List.find?_eq_none.mp found own known
        have first : ∀ other ∈ routes, feeds other = true → other.output ≠ route.output :=
          fun other known feedsOther same => fresh ((chose.fed _).mpr ⟨other, known, feedsOther, same⟩)
        refine ⟨?_, fun own => ?_, fun pair => ?_⟩
        · rw [List.map_append, List.nodup_append]
          refine ⟨chose.distinct, List.nodup_singleton _, ?_⟩
          rintro pair member other last rfl
          rw [List.map_singleton, List.mem_singleton] at last
          exact fresh (last ▸ member)
        · rw [List.mem_append, chose.leads, leads_append, List.mem_singleton]
          exact or_congr_right ⟨fun same => ⟨same, feeds', first⟩, fun last => last.1⟩
        · rw [List.map_append, List.mem_append, chose.fed, List.map_singleton, List.mem_singleton]
          constructor
          · rintro (⟨own, member, holds⟩ | rfl)
            · exact ⟨own, List.mem_append_left _ member, holds⟩
            · exact ⟨route, List.mem_append_right _ (List.mem_singleton_self _), feeds', rfl⟩
          · rintro ⟨own, member, feedsOwn, rfl⟩
            rcases List.mem_append.mp member with earlier | now
            · exact Or.inl ⟨own, earlier, feedsOwn, rfl⟩
            · exact Or.inr (congrArg Route.output (List.mem_singleton.mp now))
  · have none : feeds route = false := Bool.not_eq_true _ ▸ feeds'
    have same : choose chosen route = chosen := by
      unfold choose
      rw [none, Bool.not_false, if_pos rfl]
    rw [same]
    refine ⟨chose.distinct, fun own => ?_, fun pair => ?_⟩
    · rw [chose.leads, leads_append]
      exact ⟨Or.inl, fun leads => leads.resolve_right fun last => feeds' last.2.1⟩
    · rw [chose.fed]
      constructor
      · rintro ⟨own, member, holds⟩
        exact ⟨own, List.mem_append_left _ member, holds⟩
      · rintro ⟨own, member, feedsOwn, rfl⟩
        rcases List.mem_append.mp member with earlier | now
        · exact ⟨own, earlier, feedsOwn, rfl⟩
        · exact absurd (List.mem_singleton.mp now ▸ feedsOwn) feeds'

/-- The routes that get a sink. -/
theorem foldl_choose (routes : List Route) : Chose routes (routes.foldl choose {}).pairRoutes := by
  induction routes using List.reverseRecOn with
  | nil =>
      refine ⟨List.nodup_nil, fun route => ?_, fun pair => ?_⟩
      · constructor
        · intro member
          cases member
        · rintro ⟨before, after, split, -⟩
          simp at split
      · simp
  | append_singleton routes route ih =>
      rw [List.foldl_append]
      exact ih.step route

/-! ### Names -/

section Names

variable (alnum : Char → Bool)

/-- A character that a node's name does not keep, or that stands for such a one. -/
def isBlank (c : Char) : Bool :=
  c == '_' || !(Discovery.isWord alnum c || c == '.' || c == '-')

/-- The texts are alike, blanks being one character. -/
def Spelled (first second : List Char) : Prop :=
  List.Forall₂ (fun c d => c = d ∨ (isBlank alnum c = true ∧ isBlank alnum d = true)) first second

variable {alnum}

/-- What the node's name has of one character. -/
theorem kept_eq_iff {c d : Char} :
    ((if Discovery.isWord alnum c || c == '.' || c == '-' then c else '_')
      = if Discovery.isWord alnum d || d == '.' || d == '-' then d else '_')
      ↔ c = d ∨ (isBlank alnum c = true ∧ isBlank alnum d = true) := by
  unfold isBlank
  by_cases first : (Discovery.isWord alnum c || c == '.' || c == '-') = true
  · by_cases second : (Discovery.isWord alnum d || d == '.' || d == '-') = true
    · rw [if_pos first, if_pos second, first, second]
      simp only [Bool.not_true, Bool.or_false, beq_iff_eq]
      exact ⟨Or.inl, fun alike => alike.elim id fun both => both.1.trans both.2.symm⟩
    · have other := Bool.not_eq_true _ ▸ second
      rw [if_pos first, if_neg second, first, other]
      simp only [Bool.not_true, Bool.or_false, Bool.not_false, Bool.or_true, and_true, beq_iff_eq]
      refine ⟨Or.inr, fun alike => alike.elim (fun same => ?_) id⟩
      exact absurd (same ▸ first) second
  · have none := Bool.not_eq_true _ ▸ first
    by_cases second : (Discovery.isWord alnum d || d == '.' || d == '-') = true
    · rw [if_neg first, if_pos second, none, second]
      simp only [Bool.not_true, Bool.or_false, Bool.not_false, Bool.or_true, true_and, beq_iff_eq]
      refine ⟨fun same => Or.inr same.symm, fun alike => alike.elim (fun same => ?_) Eq.symm⟩
      exact absurd (same ▸ second) first
    · have other := Bool.not_eq_true _ ▸ second
      rw [if_neg first, if_neg second, none, other]
      simp

/-- Two nodes are named alike exactly where their routes are spelled alike. -/
theorem nodeName_eq_iff {first second : String} :
    nodeName alnum first = nodeName alnum second ↔ Spelled alnum first.toList second.toList := by
  unfold nodeName Spelled
  rw [← List.forall₂_eq_eq_eq]
  rw [List.forall₂_map_left_iff, List.forall₂_map_right_iff]
  exact ⟨fun alike => alike.imp fun _ _ => kept_eq_iff.mp, fun alike => alike.imp fun _ _ => kept_eq_iff.mpr⟩

/-- And a node on the desktop's side as one on the device's side. -/
theorem nodeName_eq_suffixed {first second : String} :
    nodeName alnum first = nodeName alnum second ++ outSuffix
      ↔ Spelled alnum first.toList (second.toList ++ outSuffix) := by
  have suffixed : nodeName alnum (String.ofList (second.toList ++ outSuffix))
      = nodeName alnum second ++ outSuffix := by
    unfold nodeName
    rw [String.toList_ofList, List.map_append]
    congr 1
  rw [← suffixed, nodeName_eq_iff, String.toList_ofList]

end Names

/-! ### The file -/

section File

variable {alnum : Char → Bool} {config : Config} {target : Option String} {sinkPositions : List String} {conf : Conf}

/-- The sinks of a file are those of the chosen routes. -/
theorem generated_sinks (generated : generatePipewireConf alnum config target sinkPositions = .ok conf) :
    List.Forall₂ (fun route sink => sink.output = route.output
        ∧ sink.captureNode = nodePrefix ++ nodeName alnum route.name
        ∧ sink.playbackNode = nodePrefix ++ nodeName alnum route.name ++ outSuffix)
      (config.routes.foldl choose {}).pairRoutes conf.sinks := by
  unfold generatePipewireConf at generated
  dsimp only at generated
  split_ifs at generated
  · cases generated
  · obtain ⟨sinks, done, generated⟩ := bind_eq_ok.mp generated
    obtain rfl := pure_eq_ok.mp generated
    refine (mapM_eq_ok.mp done).imp fun route sink made => ?_
    unfold loopback at made
    obtain ⟨positions, -, made⟩ := bind_eq_ok.mp made
    obtain rfl := pure_eq_ok.mp made
    exact ⟨rfl, rfl, rfl⟩

/-- The names of a route's nodes. -/
def nodes (alnum : Char → Bool) (route : Route) : List (List Char) :=
  [nodePrefix ++ nodeName alnum route.name, nodePrefix ++ nodeName alnum route.name ++ outSuffix]

/-- One sink for each pair that a route of the file feeds, and no name twice. -/
structure DistinctSinks (config : Config) (conf : Conf) : Prop where
  once : (conf.sinks.map (·.output)).Nodup
  fed : ∀ pair, pair ∈ conf.sinks.map (·.output) ↔ ∃ route ∈ config.routes,
    route.output = pair ∧ pair.isPair = true ∧ route.mirrorOf = none ∧ route.base = false
  names : (conf.sinks.flatMap fun sink => [sink.captureNode, sink.playbackNode]).Nodup

/-- No two routes that get a sink are spelled alike, nor one as another one with the suffix. -/
def Unalike (alnum : Char → Bool) (routes : List Route) : Prop :=
  ∀ first second, Leads routes first → Leads routes second → first.output ≠ second.output →
    ¬ Spelled alnum first.name.toList second.name.toList
      ∧ ¬ Spelled alnum first.name.toList (second.name.toList ++ outSuffix)

theorem feeds_iff {route : Route} : feeds route = true ↔
    route.output.isPair = true ∧ route.mirrorOf = none ∧ route.base = false := by
  unfold feeds
  simp [and_assoc]

/-- The nodes of two routes have no name in common exactly where neither is spelled as the other one. -/
theorem disjoint_nodes {first second : Route} : List.Disjoint (nodes alnum first) (nodes alnum second) ↔
    ¬ Spelled alnum first.name.toList second.name.toList
      ∧ ¬ Spelled alnum first.name.toList (second.name.toList ++ outSuffix)
      ∧ ¬ Spelled alnum second.name.toList (first.name.toList ++ outSuffix) := by
  rw [← nodeName_eq_iff, ← nodeName_eq_suffixed, ← nodeName_eq_suffixed]
  unfold nodes
  simp only [List.disjoint_cons_left, List.disjoint_nil_left, List.mem_cons, List.not_mem_nil, or_false, and_true,
    List.append_assoc, List.append_cancel_left_eq, List.append_left_inj, not_or]
  tauto

/-- The names in a file are distinct exactly where the routes are spelled differently. -/
theorem names_nodup_iff {routes pairRoutes : List Route} (chose : Chose routes pairRoutes) :
    (pairRoutes.flatMap (nodes alnum)).Nodup ↔ Unalike alnum routes := by
  have apart : pairRoutes.Pairwise fun first second => first.output ≠ second.output :=
    List.pairwise_map.mp chose.distinct
  have own (route : Route) : (nodes alnum route).Nodup := by
    unfold nodes
    simp [outSuffix]
  rw [List.nodup_flatMap]
  constructor
  · rintro ⟨-, separate⟩ first second leads leads' different
    have there : pairRoutes.Pairwise fun first second => first.output ≠ second.output →
        List.Disjoint (nodes alnum first) (nodes alnum second) := by
      refine separate.imp ?_
      intro first second holds _
      exact holds
    have back : pairRoutes.Pairwise fun first second => second.output ≠ first.output →
        List.Disjoint (nodes alnum second) (nodes alnum first) := by
      refine separate.imp ?_
      intro first second holds _ name member member'
      exact holds member' member
    have each := List.Pairwise.forall_of_forall_of_flip (fun _ _ other => absurd rfl other) there back
    have disjoint := disjoint_nodes.mp (each ((chose.leads _).mpr leads) ((chose.leads _).mpr leads') different)
    exact ⟨disjoint.1, disjoint.2.1⟩
  · intro unalike
    refine ⟨fun route _ => own route, ?_⟩
    refine List.Pairwise.imp_of_mem ?_ apart
    intro first second member member' different
    have there := unalike first second ((chose.leads _).mp member) ((chose.leads _).mp member') different
    have back := unalike second first ((chose.leads _).mp member') ((chose.leads _).mp member) different.symm
    exact disjoint_nodes.mpr ⟨there.1, there.2, back.2⟩

/-- **A file has one sink for each pair**, and its names are distinct exactly where the routes that get a sink are
spelled differently. -/
theorem distinctSinks_iff (generated : generatePipewireConf alnum config target sinkPositions = .ok conf) :
    DistinctSinks config conf ↔ Unalike alnum config.routes := by
  have sinks := generated_sinks generated
  have chose := foldl_choose config.routes
  have outputs : conf.sinks.map (·.output) = (config.routes.foldl choose {}).pairRoutes.map (·.output) :=
    map_eq_map (fun _ _ same => same.1) sinks
  have names : conf.sinks.flatMap (fun sink => [sink.captureNode, sink.playbackNode])
      = (config.routes.foldl choose {}).pairRoutes.flatMap (nodes alnum) := by
    rw [List.flatMap_def, List.flatMap_def]
    congr 1
    exact map_eq_map (fun _ _ ⟨_, capture, playback⟩ => by rw [capture, playback]; rfl) sinks
  constructor
  · intro distinct
    exact (names_nodup_iff chose).mp (names ▸ distinct.names)
  · intro unalike
    refine ⟨outputs ▸ chose.distinct, fun pair => ?_, names ▸ (names_nodup_iff chose).mpr unalike⟩
    rw [outputs, chose.fed]
    constructor
    · rintro ⟨route, known, feeds', rfl⟩
      exact ⟨route, known, rfl, feeds_iff.mp feeds'⟩
    · rintro ⟨route, known, rfl, holds⟩
      exact ⟨route, known, feeds_iff.mpr holds, rfl⟩

end File

/-! ### Two routes of one name -/

/-- Routes to two pairs of outputs. -/
def twoPairs (first second : String) (distinct : ("route:" ++ first) ≠ ("route:" ++ second)) : IniFile where
  sections :=
    [⟨"route:" ++ first, [("playback", "1/2"), ("output", "1/2")], by decide⟩,
      ⟨"route:" ++ second, [("playback", "3/4"), ("output", "3/4")], by decide⟩]
  distinct := by simpa using distinct

/-- "main" and "phones". -/
def mainAndPhones : IniFile :=
  twoPairs "main" "phones" (by decide)

/-- "main mix" and "main_mix". -/
def mixAndMix : IniFile :=
  twoPairs "main mix" "main_mix" (by decide)

theorem mainAndPhones_distinct : ∃ conf,
    generatePipewireConf (fun _ => false) (configOf mainAndPhones) none [] = .ok conf
      ∧ DistinctSinks (configOf mainAndPhones) conf := by
  have known : (generatePipewireConf (fun _ => false) (configOf mainAndPhones) none []).toOption.isSome = true := by
    decide +kernel
  cases made : generatePipewireConf (fun _ => false) (configOf mainAndPhones) none [] with
  | error problem =>
      rw [made] at known
      cases known
  | ok conf =>
      refine ⟨conf, rfl, (distinctSinks_iff made).mpr ?_⟩
      exact (names_nodup_iff (foldl_choose _)).mp (by decide +kernel)

/-- Two sinks of one name. -/
theorem mixAndMix_oneName : ¬ ∀ config, Accepted config → ∀ alnum target sinkPositions conf,
    generatePipewireConf alnum config target sinkPositions = .ok conf → DistinctSinks config conf := by
  intro always
  have generated : (generatePipewireConf (fun _ => false) (configOf mixAndMix) none []).toOption.map
      (fun conf => decide (conf.sinks.flatMap fun sink => [sink.captureNode, sink.playbackNode]).Nodup)
        = some false := by decide +kernel
  cases made : generatePipewireConf (fun _ => false) (configOf mixAndMix) none [] with
  | error problem =>
      rw [made] at generated
      cases generated
  | ok conf =>
      rw [made] at generated
      have distinct := always (configOf mixAndMix) (accepted_configOf (by decide +kernel)) _ _ _ conf made
      have same := Option.some_inj.mp generated
      exact of_decide_eq_false same distinct.names

end OscmixDesk.Pipewire
