/-
**A dump inverts an apply.**

A device that holds the routes of a configuration, and no other crosspoint of their kind, is dumped. The dump regroups
the crosspoints from the reports alone: its routes ask the links and the crosspoints of the configuration's routes,
one route for each (`routesFromObserved_inverts`).
-/

import OscmixDesk.Proof.Confined
import OscmixDesk.Proof.Converges
import OscmixDesk.Proof.Redumped

namespace OscmixDesk.Dump

/-- What a route asks of the links and of the matrix. Its name, its volume and where it was declared are left out. -/
def asked (route : Route) : List Message × List Message :=
  (linkMessages route, cellMessages route)

/-- The device holds the routes and reports them: their links and crosspoints, and no other crosspoint of their
kind. -/
structure HoldsRoutes (seen : Readout) (device : Option Device) (kind : Kind) (back : ℚ → ℚ) (routes : List Route) :
    Prop where
  links : ∀ route ∈ routes, ∀ requirement ∈ route.linkRequirements,
    linked seen requirement.family requirement.channel = some requirement.linked
  cells : Holds seen device kind back (routes.flatMap cellMessages)
  silent : ∀ cell ∈ audible seen device kind, Sets routes kind cell.address
    ∨ folded seen kind cell = true ∧ Sets routes kind cell.home

/-- A route a dump has a form for. -/
structure Plain (device : Option Device) (own : Kind) (route : Route) : Prop where
  kind : route.kind = own
  source : route.source.Hardware
  output : route.output.Hardware
  level : ∃ k : ℤ, route.level = tenths k ∧ -650 < k ∧ k ≤ 60
  quiet : route.output.isPair = true → route.stereo = false → route.level ≤ 0
  balance : -100 ≤ route.pan ∧ route.pan ≤ 100
  inside : ∀ output ∈ route.output.toList, ∀ source ∈ route.source.toList, Inside device own (output, source)

section Inverse

variable {seen : Readout} {device : Option Device} {kind : Kind} {back : ℚ → ℚ} {routes : List Route} {route : Route}

theorem hardware_pair {left right : ℕ} (hardware : (Channels.pair left right).Hardware) :
    left % 2 = 1 ∧ right = left + 1 := by
  have adjacent := hardware rfl
  unfold Channels.adjacent at adjacent
  simpa using adjacent

theorem pairLeft_hardware {channels : Channels} (hardware : channels.Hardware) (pair : channels.isPair = true) :
    pairLeft channels.first = channels.first := by
  cases channels with
  | mono channel => cases pair
  | pair left right =>
      have odd := (hardware_pair hardware).1
      show left - (left - 1) % 2 = left
      omega

theorem corner_inside {output source : ℕ} {level : ℚ} {pan : ℤ} (odd : output % 2 = 1) (odd' : source % 2 = 1)
    (inside : Inside device kind (output + 1, source + 1)) :
    isCorner device kind ⟨output, source, level, pan⟩ = true := by
  unfold Inside at inside
  unfold isCorner
  rw [Option.any_eq_true] at inside ⊢
  obtain ⟨known, found, has⟩ := inside
  refine ⟨known, found, ?_⟩
  simp only [Bool.and_eq_true, decide_eq_true_eq] at has ⊢
  exact ⟨⟨⟨odd, odd'⟩, has.1⟩, has.2⟩

section Held

variable (held : HoldsRoutes seen device kind back routes) (known : route ∈ routes)

include held known

theorem HoldsRoutes.source_linked (plain : Plain device kind route) :
    linked seen kind.family route.source.first = some route.source.isPair := by
  have stated := held.links route known route.sourceLink (by simp [Route.linkRequirements])
  rw [← plain.kind, ← linked_anchor]
  exact stated

theorem HoldsRoutes.output_linked :
    linked seen .output route.output.first = some (route.output.isPair && route.stereo) := by
  have stated := held.links route known route.outputLink (by simp [Route.linkRequirements])
  rw [← linked_anchor]
  exact stated

/-- A route that is held is read back: what the dump makes of its crosspoint asks for the same. -/
theorem HoldsRoutes.remade (resolves : Resolves back) (plain : Plain device kind route) :
    ∃ cell ∈ (canonicalCells seen device kind).cells.items, cell.address = routeAddress route ∧ ∃ made addresses,
      Reads seen device kind (canonicalCells seen device kind).cells cell made addresses
        ∧ asked made = asked route := by
  obtain ⟨k, written, low, high⟩ := plain.level
  have sourceLinked := held.source_linked known plain
  have outputLinked := held.output_linked known
  have sent : ∀ message ∈ cellMessages route, message ∈ routes.flatMap cellMessages := fun message own =>
    List.mem_flatMap.mpr ⟨route, known, own⟩
  obtain ⟨name, own, source, output, level, volume, stereo, pan, mirrorOf, base, width⟩ := route
  obtain rfl : own = kind := plain.kind
  obtain rfl : level = tenths k := written
  cases output with
  | mono out =>
      cases source with
      | pair left right => cases width
      | mono channel =>
          obtain ⟨cell, member, address, addresses, reads⟩ := held.cells.reads_mono resolves low high
            (sent _ (List.mem_singleton.mpr rfl)) (plain.inside out (by simp [Channels.toList]) channel
              (by simp [Channels.toList])) outputLinked sourceLinked
          refine ⟨cell, member, address, _, addresses, reads, ?_⟩
          simp [asked, linkMessages, Route.linkRequirements, Route.sourceLink, Route.outputLink, cellMessages,
            monoRoute, Channels.isPair, Channels.first, round1_self low.le high]
  | pair left right =>
      cases source with
      | mono channel => cases width
      | pair channel next =>
          obtain ⟨odd, rfl⟩ := hardware_pair plain.output
          obtain ⟨odd', rfl⟩ := hardware_pair plain.source
          have inside := plain.inside left (by simp [Channels.toList]) channel (by simp [Channels.toList])
          have inside' := plain.inside (left + 1) (by simp [Channels.toList]) channel (by simp [Channels.toList])
          have last := plain.inside (left + 1) (by simp [Channels.toList]) (channel + 1) (by simp [Channels.toList])
          cases stereo with
          | true =>
              obtain ⟨cell, member, address, addresses, reads⟩ := held.cells.reads_pair resolves low high
                (sent _ (List.mem_singleton.mpr rfl)) inside plain.balance (corner_inside odd odd' last)
                outputLinked sourceLinked
              refine ⟨cell, member, address, _, addresses, reads, ?_⟩
              simp [asked, linkMessages, Route.linkRequirements, Route.sourceLink, Route.outputLink, cellMessages,
                linkedRoute, Channels.isPair, Channels.first, round1_self low.le high]
          | false =>
              have quiet : k ≤ 0 := by
                have level : tenths k ≤ 0 := plain.quiet rfl rfl
                rw [← tenths_zero] at level
                exact (tenths_le_iff (abs_le.mpr ⟨by omega, by omega⟩) (by norm_num)).mp level
              have level : splitLevel (unlinkedLevel (tenths k)) = tenths k :=
                splitLevel_of_near low quiet (by rw [sub_self, abs_zero]; norm_num)
              obtain ⟨cell, member, address, addresses, reads⟩ := @Holds.reads_split _ _ _ _ _ held.cells resolves
                left channel k low quiet (sent _ List.mem_cons_self)
                (sent _ (List.mem_cons_of_mem _ List.mem_cons_self)) inside inside' (corner_inside odd odd' last)
                outputLinked sourceLinked ⟨left, channel, unlinkedLevel (tenths k), -100⟩ level rfl
              refine ⟨cell, member, address, _, addresses, reads, ?_⟩
              simp [asked, linkMessages, Route.linkRequirements, Route.sourceLink, Route.outputLink, cellMessages,
                splitRoute, Channels.isPair, Channels.first, level]

/-- A crosspoint a route that is held sets is the one it is read back from, or the other half of an unlinked pair. -/
theorem HoldsRoutes.sets_cases (plain : Plain device kind route) {address : ℕ × ℕ}
    (set : Path.mix address.1 kind address.2 ∈ (cellMessages route).map (·.path)) :
    address = routeAddress route
      ∨ address.1 % 2 = 0 ∧ linked seen .output address.1 = some false
        ∧ ∃ level, mixMessage address.1 kind address.2 level 100 ∈ routes.flatMap cellMessages := by
  have outputLinked := held.output_linked known
  have sent : ∀ message ∈ cellMessages route, message ∈ routes.flatMap cellMessages := fun message own =>
    List.mem_flatMap.mpr ⟨route, known, own⟩
  obtain ⟨message, listed, path⟩ := List.mem_map.mp set
  obtain ⟨name, own, source, output, level, volume, stereo, pan, mirrorOf, base, width⟩ := route
  obtain rfl : own = kind := plain.kind
  unfold cellMessages at listed
  cases output with
  | mono out =>
      rw [List.mem_singleton.mp listed] at path
      injection path with output _ source
      exact Or.inl (Prod.ext output.symm source.symm)
  | pair left right =>
      obtain ⟨odd, rfl⟩ := hardware_pair plain.output
      cases stereo with
      | true =>
          rw [List.mem_singleton.mp listed] at path
          injection path with output _ source
          exact Or.inl (Prod.ext output.symm source.symm)
      | false =>
          rcases List.mem_cons.mp listed with rfl | listed
          · injection path with output _ source
            exact Or.inl (Prod.ext output.symm source.symm)
          · obtain rfl := List.mem_singleton.mp listed
            injection path with output _ source'
            have here : address = (left + 1, source.first) := Prod.ext output.symm source'.symm
            subst here
            have even : (left + 1) % 2 = 0 := by omega
            refine Or.inr ⟨even, ?_, _, sent _ (List.mem_cons_of_mem _ List.mem_cons_self)⟩
            rw [linked_next .output odd]
            exact outputLinked

end Held

theorem cellMessages_ne_nil (route : Route) : cellMessages route ≠ [] := by
  unfold cellMessages
  cases route.output with
  | mono out => exact List.cons_ne_nil _ _
  | pair left right =>
      dsimp only
      split <;> exact List.cons_ne_nil _ _

/-- Routes that set no crosspoint twice ask for different things. -/
theorem asked_distinct (once : ((routes.flatMap cellMessages).map (·.path)).Nodup) : (routes.map asked).Nodup := by
  rw [List.map_flatMap, List.nodup_flatMap] at once
  refine List.pairwise_map.mpr (once.2.imp ?_)
  intro first second disjoint same
  obtain ⟨message, own⟩ := List.exists_mem_of_ne_nil _ (cellMessages_ne_nil first)
  have cells : cellMessages first = cellMessages second := congrArg Prod.snd same
  exact disjoint (List.mem_map_of_mem own) (List.mem_map_of_mem (cells ▸ own))

/-- What a dump makes of a device that holds plain routes is one of them. -/
theorem HoldsRoutes.original (held : HoldsRoutes seen device kind back routes) (resolves : Resolves back)
    (plain : ∀ route ∈ routes, Plain device kind route) {made : Route}
    (dumped : made ∈ (routesFromObserved seen device kind).1) : ∃ route ∈ routes, asked made = asked route := by
  obtain ⟨cell, member, addresses, reads⟩ := mem_routesFromObserved.mp dumped
  have setBy : ∀ {address : ℕ × ℕ}, Sets routes kind address → ∃ route ∈ routes,
      Path.mix address.1 kind address.2 ∈ (cellMessages route).map (·.path) := by
    intro address set
    obtain ⟨message, sent, path⟩ := List.mem_map.mp set
    obtain ⟨route, known, own⟩ := List.mem_flatMap.mp sent
    exact ⟨route, known, List.mem_map.mpr ⟨message, own, path⟩⟩
  -- the crosspoint of the route is one that was set
  have set : Sets routes kind cell.address := by
    obtain ⟨own, reported, -, -, origin⟩ := canonical_origin member
    have homed : ∀ {cell : Cell}, folded seen kind cell = true → Sets routes kind cell.address →
        cell.home = cell.address := by
      intro cell linked set
      unfold folded at linked
      simp only [Bool.and_eq_true, decide_eq_true_eq] at linked
      obtain ⟨route, known, own⟩ := setBy set
      rcases held.sets_cases known (plain route known) own with here | ⟨-, unlinked, -⟩
      · have output := held.output_linked known
        have source := held.source_linked known (plain route known)
        obtain ⟨first, second⟩ := Prod.mk.inj here
        rw [← first, linked.1] at output
        rw [← second, linked.2] at source
        have output' : true = (route.output.isPair && route.stereo) := Option.some.inj output
        have corner := pairLeft_hardware (plain route known).output ((Bool.and_eq_true _ _).mp output'.symm).1
        show (pairLeft cell.address.1, pairLeft cell.address.2) = cell.address
        rw [here]
        exact Prod.ext corner (pairLeft_hardware (plain route known).source (Option.some.inj source).symm)
      · rw [show cell.address.1 = cell.output from rfl, linked.1] at unlinked
        cases unlinked
    rcases origin with rfl | ⟨linked, address⟩
    · rcases held.silent own reported with set | ⟨linked, set⟩
      · exact set
      · unfold folded at linked
        simp only [Bool.and_eq_true, decide_eq_true_eq] at linked
        cases reads with
        | pair _ _ corner => rwa [corner_home corner] at set
        | split out => rw [linked.1] at out; cases out
        | mono out => rw [linked.1] at out; cases out
    · rcases held.silent own reported with set | ⟨-, set⟩
      · rw [address, homed linked set]
        exact set
      · rw [address]
        exact set
  obtain ⟨route, known, own⟩ := setBy set
  rcases held.sets_cases known (plain route known) own with here | ⟨even, unlinked, level, sent⟩
  · obtain ⟨other, member', address, remade, claimed, reads', same⟩ := held.remade known resolves (plain route known)
    obtain rfl := List.inj_on_of_nodup_map (canonicalCells seen device kind).cells.distinct member' member
      (address.trans here.symm)
    rw [reads.unique reads']
    exact ⟨route, known, same⟩
  · have none := held.cells.half_gives_none member rfl even unlinked sent
    rw [routeOf_eq_some.mpr ⟨addresses, reads⟩] at none
    cases none

/-- **A dump inverts an apply.** -/
theorem HoldsRoutes.dumped (held : HoldsRoutes seen device kind back routes) (resolves : Resolves back)
    (plain : ∀ route ∈ routes, Plain device kind route)
    (once : ((routes.flatMap cellMessages).map (·.path)).Nodup) :
    ((routesFromObserved seen device kind).1.map asked).Perm (routes.map asked) := by
  refine (List.perm_ext_iff_of_nodup
    (asked_distinct (routesFromObserved_once seen device kind)) (asked_distinct once)).mpr fun pair => ?_
  constructor
  · intro member
    obtain ⟨made, dumped, rfl⟩ := List.mem_map.mp member
    obtain ⟨route, known, same⟩ := held.original resolves plain dumped
    exact List.mem_map.mpr ⟨route, known, same.symm⟩
  · intro member
    obtain ⟨route, known, rfl⟩ := List.mem_map.mp member
    obtain ⟨cell, own, -, made, addresses, reads, same⟩ := held.remade known resolves (plain route known)
    exact List.mem_map.mpr ⟨made, mem_routesFromObserved.mpr ⟨cell, own, addresses, reads⟩, same⟩

end Inverse

/-! ### The routes of an accepted configuration -/

section Accepted

variable {config : Config} {declared added : List Route} {mirrors : List Mirror}

/-- The level of a route is one the file format allows. An unlinked pair is compensated, so it has less room. -/
theorem route_level (loaded : Loaded config declared added mirrors) {route : Route} (member : route ∈ config.routes) :
    route.level ≤ levelMax ∧ (route.output.isPair = true → route.stereo = false → route.level ≤ 0) := by
  have layers : ∀ original ∈ declared ++ added, original.level ≤ levelMax
      ∧ (original.output.isPair = true → original.stereo = false → original.level ≤ 0) := by
    intro original known
    rcases List.mem_append.mp known with file | base
    · have parsed := loaded.parsed original file
      exact ⟨parsed.level.2, parsed.unlinked⟩
    · have floor : (0 : ℚ) ≤ levelMax := by
        unfold levelMax
        norm_num
      obtain ⟨device, -, -, left, -, -, diagonal, -⟩ := loaded.mem_added base
      cases diagonal with
      | mono own isOwn => exact ⟨floor, fun _ _ => le_rfl⟩
      | pair => exact ⟨floor, fun _ _ => le_rfl⟩
  rcases loaded.mem_routes.mp member with original | ⟨mirror, -, original, known, own, rfl⟩
  · exact layers route original
  · obtain ⟨level, quiet⟩ := layers original known
    refine ⟨level, fun pair split => quiet ?_ split⟩
    have width : (mirrorCopy mirror original own).output.isPair = original.output.isPair := by
      rw [own]
      exact mirror.sameWidth
    exact width ▸ pair

/-- A route between hardware pairs has a form in a dump, if its level is one of a tenth of a decibel. -/
theorem plain_of_loaded (loaded : Loaded config declared added mirrors) {known : Device}
    (device : deviceForName config.deviceName = some known) {route : Route} (member : route ∈ config.routes)
    (hardware : route.source.Hardware ∧ route.output.Hardware)
    (grid : round1 route.level = route.level ∧ levelMin < route.level) :
    Plain (some known) route.kind route := by
  obtain ⟨level, quiet⟩ := route_level loaded member
  obtain ⟨source, output⟩ := loaded.route_channels device member
  have floor : -65 ≤ route.level := grid.2.le
  obtain ⟨k, written, low, high⟩ := round1_tenths floor level
  rw [grid.1] at written
  refine ⟨rfl, hardware.1, hardware.2, ⟨k, written, ?_, high⟩, quiet, (loaded.route_values member).1, ?_⟩
  · rw [← tenths_audible low high, ← written]
    exact grid.2
  · intro out inOutput channel inSource
    unfold Inside Device.has
    simp only [Option.any_some, Bool.and_eq_true, List.contains_iff_mem]
    exact ⟨output out inOutput, source channel inSource⟩

end Accepted

/-- The desk of one stereo pair at a level. -/
def pairDesk : IniFile where
  sections := [⟨"route:main", [("playback", "1/2"), ("output", "3/4"), ("level", "-12.5")], by simp⟩]
  distinct := List.nodup_singleton _

/-- What the device reports behind it. -/
def pairReports : Readout where
  items := [(.link .playback 1, [.int 1]), (.link .output 3, [.int 1]),
    (.mix 3 .playback 1, [.real (literal (-125) 1), .int 0])]
  distinct := show [Path.link .playback 1, .link .output 3, .mix 3 .playback 1].Nodup by decide

theorem pairReports_held : HoldsRoutes pairReports (deviceForName (configOf pairDesk).deviceName) .playback id
    ((configOf pairDesk).routes.filter (·.kind = .playback)) := by
  have sent : ((configOf pairDesk).routes.filter (·.kind = .playback)).flatMap cellMessages
      = [mixMessage 3 .playback 1 (literal (-125) 1) 0] := by decide +kernel
  refine ⟨by decide +kernel, ⟨?_, by decide +kernel⟩, by decide +kernel⟩
  intro address level pan member
  rw [sent] at member
  have same := List.mem_singleton.mp member
  unfold mixMessage at same
  injection same with path _ args
  injection path with out _ source
  injection args with first rest
  injection rest with second
  rw [out, source, Value.int.inj second, PyFloat.finite.inj (Value.float.inj first)]
  decide +kernel

end OscmixDesk.Dump
