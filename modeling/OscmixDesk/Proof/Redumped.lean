/-
**Dumping, applying and dumping again.**

The routes of a dump are applied to the device that reported it, and the device is dumped again. A device may
report a level a little off what was written (`Resolves`), and the addresses of a linked crosspoint report its one
register (`Redumped`). The routes are the same ones, unless a level was rounded onto the mute floor: such a route
mutes its crosspoint, and is gone (`redumped_iff`).
-/

import OscmixDesk.Proof.Recovered

namespace OscmixDesk.Dump

/-! ### The order of the routes -/

/-- The crosspoint a route is named by. -/
def routeAddress (route : Route) : ℕ × ℕ :=
  (route.output.first, route.source.first)

variable {seen : Readout} {device : Option Device} {kind : Kind} {cells : Keyed Cell.address} {cell : Cell}

theorem Reads.address {route : Route} {addresses : List (ℕ × ℕ)}
    (reads : Reads seen device kind cells cell route addresses) : routeAddress route = cell.address := by
  cases reads <;> rfl

/-- One crosspoint implies one route. -/
theorem Reads.unique {first second : Route} {addresses others : List (ℕ × ℕ)}
    (one : Reads seen device kind cells cell first addresses)
    (other : Reads seen device kind cells cell second others) : first = second :=
  (Prod.mk.inj (Except.ok.inj ((cellRoute_iff.mpr one).symm.trans (cellRoute_iff.mpr other)))).1

/-- By output, then by source, with no two alike. -/
def earlier (first second : Route) : Prop :=
  (routeAddress first).1 < (routeAddress second).1
    ∨ (routeAddress first).1 = (routeAddress second).1 ∧ (routeAddress first).2 < (routeAddress second).2

instance : IsTrans Route earlier where
  trans first second third := by
    unfold earlier
    omega

instance : Std.Irrefl earlier where
  irrefl route := by
    unfold earlier
    omega

/-- A list by addresses, each once, and what its items imply. -/
theorem pairwise_routes {list : List Cell} (sorted : list.Pairwise Cell.before)
    (distinct : (list.map Cell.address).Nodup) :
    (list.filterMap (routeOf seen device kind cells)).Pairwise earlier := by
  rw [List.pairwise_filterMap]
  refine (sorted.and (List.pairwise_map.mp distinct)).imp ?_
  rintro first second ⟨order, apart⟩ route made route' made'
  obtain ⟨addresses, reads⟩ := routeOf_eq_some.mp made
  obtain ⟨addresses', reads'⟩ := routeOf_eq_some.mp made'
  unfold earlier
  rw [reads.address, reads'.address]
  unfold Cell.before at order
  unfold Cell.address at apart ⊢
  rcases order with less | ⟨same, le⟩
  · exact Or.inl less
  · exact Or.inr ⟨same, lt_of_le_of_ne le fun equal => apart (Prod.ext same equal)⟩

theorem routes_sorted (seen : Readout) (device : Option Device) (kind : Kind) :
    (routesFromObserved seen device kind).1.Pairwise earlier := by
  rw [routesFromObserved_eq]
  exact pairwise_routes (List.pairwise_insertionSort Cell.before _) (orderedCells_distinct seen device kind)

/-- Two dumps with the same routes have them in the same order. -/
theorem routes_ext {again : Readout} (same : ∀ route, route ∈ (routesFromObserved again device kind).1
    ↔ route ∈ (routesFromObserved seen device kind).1) :
    (routesFromObserved again device kind).1 = (routesFromObserved seen device kind).1 := by
  have nodup : ∀ {list : List Route}, list.Pairwise earlier → list.Nodup := fun sorted =>
    sorted.imp fun {first second} (less : earlier first second) (equal : first = second) =>
      Std.Irrefl.irrefl first (equal ▸ less : earlier first first)
  have perm : (routesFromObserved again device kind).1.Perm (routesFromObserved seen device kind).1 :=
    (List.perm_ext_iff_of_nodup (nodup (routes_sorted _ _ _)) (nodup (routes_sorted _ _ _))).mpr same
  refine perm.eq_of_pairwise (fun first second _ _ less more => ?_) (routes_sorted _ _ _) (routes_sorted _ _ _)
  exact absurd (Trans.trans less more : earlier first first) (Std.Irrefl.irrefl first)

/-! ### The device that is dumped again -/

/-- What a device may report of a level that was written: a number near to it, and none beyond the bounds of what
was written. -/
structure Resolves (back : ℚ → ℚ) : Prop where
  near : ∀ level, |back level - level| ≤ 1 / 25
  top : ∀ level ≤ levelMax, back level ≤ levelMax
  loudest : ∀ level ≤ unlinkedGainOffset, back level ≤ loudest

/-- The report of a crosspoint that was written. -/
def reportOf (back : ℚ → ℚ) (level : ℚ) (pan : ℤ) : Args :=
  if level ≤ levelMin then [.float (.infinite true), .int pan] else [.real (back level), .int pan]

/-- Whether the routes set a crosspoint. -/
def Sets (routes : List Route) (kind : Kind) (address : ℕ × ℕ) : Prop :=
  Path.mix address.1 kind address.2 ∈ (routes.flatMap cellMessages).map (·.path)

instance (routes : List Route) (kind : Kind) (address : ℕ × ℕ) : Decidable (Sets routes kind address) :=
  inferInstanceAs (Decidable (Path.mix address.1 kind address.2 ∈ (routes.flatMap cellMessages).map (·.path)))

/-- The device behind the routes, read again. The links are as they were: what the routes state of a pair is what
was reported (`Accounts.links`). -/
structure Redumped (seen : Readout) (device : Option Device) (kind : Kind) (back : ℚ → ℚ)
    (routes : List Route) (again : Readout) : Prop where
  links : ∀ family channel, again.args (.link family channel) = seen.args (.link family channel)
  /-- A crosspoint that was set reports what was written. -/
  written : ∀ (address : ℕ × ℕ) (level : ℚ) (pan : ℤ),
    mixMessage address.1 kind address.2 level pan ∈ routes.flatMap cellMessages →
      again.args (.mix address.1 kind address.2) = some (reportOf back level pan)
  /-- The other addresses of a linked crosspoint report its one register, if they are heard. -/
  shared : ∀ cell ∈ audible again device kind, folded seen kind cell = true → Sets routes kind cell.home →
    ∃ own ∈ audible again device kind, own.address = cell.home ∧ own.level = cell.level ∧ own.pan = cell.pan
  /-- Every other crosspoint reports what it did. -/
  others : ∀ cell : Cell, ¬ Sets routes kind cell.address →
    ¬(folded seen kind cell = true ∧ Sets routes kind cell.home) →
    again.args (.mix cell.output kind cell.source) = seen.args (.mix cell.output kind cell.source)

/-! ### Levels that were written -/

section Levels

variable {back : ℚ → ℚ}

theorem round1_tenths {value : ℚ} (low : -65 ≤ value) (high : value ≤ levelMax) :
    ∃ k : ℤ, round1 value = tenths k ∧ -650 ≤ k ∧ k ≤ 60 := by
  unfold levelMax at high
  have floor := roundHalfEven_mono (show ((-650 : ℤ) : ℚ) ≤ value * 10 by push_cast; linarith)
  have top := roundHalfEven_mono (show value * 10 ≤ ((60 : ℤ) : ℚ) by push_cast; linarith)
  rw [roundHalfEven_intCast] at floor top
  exact ⟨_, round1_eq value, floor, top⟩

theorem splitLevel_tenths {value : ℚ} (low : -65 ≤ value) (high : value ≤ 7)
    (audible : levelMin < splitLevel value) (quiet : splitLevel value ≤ 0) :
    ∃ k : ℤ, splitLevel value = tenths k ∧ -650 < k ∧ k ≤ 0 := by
  have offset := unlinkedGainOffset_bounds
  have size : |value - unlinkedGainOffset| ≤ 128 := by
    rw [abs_le]
    constructor <;> linarith
  have near := abs_le.mp (round64_slack size)
  unfold slack at near
  have floor := roundHalfEven_mono
    (show ((-1000 : ℤ) : ℚ) ≤ round64 (value - unlinkedGainOffset) * 10 by push_cast; linarith)
  have top := roundHalfEven_mono
    (show round64 (value - unlinkedGainOffset) * 10 ≤ ((1000 : ℤ) : ℚ) by push_cast; linarith)
  rw [roundHalfEven_intCast] at floor top
  have written : splitLevel value = tenths (roundHalfEven (round64 (value - unlinkedGainOffset) * 10)) := rfl
  have small : |roundHalfEven (round64 (value - unlinkedGainOffset) * 10)| ≤ 1200 :=
    abs_le.mpr ⟨by omega, by omega⟩
  refine ⟨_, written, ?_, ?_⟩
  · rw [written, ← tenths_floor] at audible
    exact not_le.mp fun less => absurd audible (not_lt.mpr (tenths_mono less))
  · rw [written, ← tenths_zero] at quiet
    exact (tenths_le_iff small (by norm_num)).mp quiet

theorem tenths_audible {k : ℤ} (low : -650 ≤ k) (high : k ≤ 60) : levelMin < tenths k ↔ -650 < k := by
  rw [← tenths_floor, ← not_le, ← not_le,
    tenths_le_iff (abs_le.mpr ⟨by omega, by omega⟩) (by norm_num)]

theorem Resolves.audible (resolves : Resolves back) {k : ℤ} (low : -650 < k) (high : k ≤ 60) :
    levelMin < back (tenths k) := by
  have near := abs_le.mp (resolves.near (tenths k))
  have grid := abs_le.mp (tenths_near (k := k) (abs_le.mpr ⟨by omega, by omega⟩))
  have above : (-649 : ℚ) ≤ k := by exact_mod_cast low
  unfold slack at grid
  unfold levelMin
  linarith

/-- A level on the grid is read back as it was written. -/
theorem Resolves.round1 (resolves : Resolves back) {k : ℤ} (low : -650 ≤ k) (high : k ≤ 60) :
    round1 (back (tenths k)) = tenths k := by
  refine round1_of_near (abs_le.mpr ⟨by omega, by omega⟩) ((resolves.near _).trans ?_)
  unfold slack
  norm_num

/-- So is the level of an unlinked pair. -/
theorem Resolves.splitLevel (resolves : Resolves back) {k : ℤ} (low : -650 < k) (high : k ≤ 0) :
    splitLevel (back (unlinkedLevel (tenths k))) = tenths k :=
  splitLevel_of_near low high (resolves.near _)

theorem unlinkedLevel_bounds {k : ℤ} (low : -650 < k) (high : k ≤ 0) :
    -60 ≤ unlinkedLevel (tenths k) ∧ unlinkedLevel (tenths k) ≤ unlinkedGainOffset := by
  have audible : levelMin < tenths k := (tenths_audible (by omega) (by omega)).mpr low
  have quiet : tenths k ≤ 0 := by
    rw [← tenths_zero]
    exact tenths_mono high
  have near := abs_le.mp (unlinkedLevel_near audible quiet)
  have offset := unlinkedGainOffset_bounds
  have exact : round64 unlinkedGainOffset = unlinkedGainOffset := by decide +kernel
  constructor
  · unfold levelMin at audible
    unfold slack at near
    linarith
  · unfold unlinkedLevel
    rw [if_neg (not_le.mpr audible), min_eq_left quiet]
    calc round64 (tenths k + unlinkedGainOffset) ≤ round64 unlinkedGainOffset :=
          round64_mono (by linarith)
      _ = unlinkedGainOffset := exact

end Levels

/-! ### What is heard again -/

/-- A crosspoint whose channels the device has. -/
def Inside (device : Option Device) (kind : Kind) (address : ℕ × ℕ) : Prop :=
  device.any (fun known => known.has "output" address.1 && known.has kind.family.name address.2) = true

theorem mixCell_report {back : ℚ → ℚ} {address : ℕ × ℕ} {level : ℚ} {pan : ℤ}
    (inside : Inside device kind address) (written : levelMin < level) (audible : levelMin < back level)
    (supported : back level ≤ loudest) (balance : -100 ≤ pan ∧ pan ≤ 100) :
    mixCell device kind address.1 address.2 (reportOf back level pan)
      = .ok (some { output := address.1, source := address.2, level := back level, pan }) := by
  unfold reportOf
  rw [if_neg (not_le.mpr written)]
  unfold mixCell
  rw [if_neg (by rw [Bool.not_eq_true', Bool.not_eq_false]; exact inside)]
  show (if Value.real (back level) = .float (.infinite true) then _ else _) = _
  rw [if_neg (by simp)]
  show (if back level ≤ levelMin then _ else _) = _
  rw [if_neg (not_le.mpr audible), if_neg (not_lt.mpr supported)]
  show (if -100 ≤ pan ∧ pan ≤ 100 then _ else _) = _
  rw [if_pos balance]

/-- What was muted is not heard. -/
theorem mixCell_muted {back : ℚ → ℚ} {output source : ℕ} {level : ℚ} {pan : ℤ} (muted : level ≤ levelMin)
    (cell : Cell) : mixCell device kind output source (reportOf back level pan) ≠ .ok (some cell) := by
  unfold reportOf mixCell
  rw [if_pos muted]
  split_ifs
  · exact fun same => by cases same
  · exact fun same => by cases same

/-- The other channel of a pair the device has. -/
theorem pair_inside {known : Device} (modelled : known ∈ devices) {family : String}
    (numbered : family ∈ ["input", "output", "playback"]) {channel : ℕ} (odd : channel % 2 = 1)
    (next : known.has family (channel + 1) = true) : known.has family channel = true := by
  have upTo : ∀ last : ℕ, (seq 1 last).contains (channel + 1) = true → (seq 1 last).contains channel = true := by
    intro last member
    rw [List.contains_iff_mem, seq, List.mem_range'_1] at member ⊢
    omega
  simp only [List.mem_cons, List.not_mem_nil, or_false] at numbered
  simp only [devices, List.mem_cons, List.not_mem_nil, or_false] at modelled
  rcases modelled with rfl | rfl <;> rcases numbered with rfl | rfl | rfl <;> exact upTo _ next

theorem audible_unique {first second : Cell} (one : first ∈ audible seen device kind)
    (other : second ∈ audible seen device kind) (same : first.address = second.address) : first = second :=
  List.inj_on_of_nodup_map (mixEntries seen device kind).cells.distinct one other same

theorem canonical_balance (member : cell ∈ (canonicalCells seen device kind).cells.items) :
    -100 ≤ cell.pan ∧ cell.pan ≤ 100 := by
  obtain ⟨own, reported, -, pan, -⟩ := canonical_origin member
  rw [← pan]
  exact (audible_sound reported).balance

theorem corner_home (corner : isCorner device kind cell = true) : cell.home = cell.address := by
  have odd := isCorner_odd corner
  unfold Cell.home Cell.address pairLeft
  refine Prod.ext ?_ ?_
  · show cell.output - (cell.output - 1) % 2 = cell.output
    omega
  · show cell.source - (cell.source - 1) % 2 = cell.source
    omega

theorem not_folded_left {cell : Cell} (out : linked seen .output cell.output = some false) :
    ¬ folded seen kind cell = true := by
  unfold folded
  rw [out]
  simp

theorem Reads.inside (modelled : ∀ known, device = some known → known ∈ devices)
    (member : cell ∈ (canonicalCells seen device kind).cells.items) {route : Route} {addresses : List (ℕ × ℕ)}
    (reads : Reads seen device kind cells cell route addresses) :
    ∀ address ∈ addresses, Inside device kind address := by
  have numbered : kind.family.name ∈ ["input", "output", "playback"] := by
    cases kind <;> decide
  have corners : isCorner device kind cell = true → Inside device kind cell.address
      ∧ Inside device kind (cell.output + 1, cell.source) := by
    intro corner
    have odd := isCorner_odd corner
    unfold isCorner at corner
    unfold Inside
    rw [Option.any_eq_true] at corner ⊢
    rw [Option.any_eq_true]
    obtain ⟨known, found, corner⟩ := corner
    simp only [Bool.and_eq_true, decide_eq_true_eq] at corner ⊢
    have own := modelled known found
    have out := pair_inside own (by simp) odd.1 corner.1.2
    have source := pair_inside own numbered odd.2 corner.2
    exact ⟨⟨known, found, out, source⟩, known, found, corner.1.2, source⟩
  cases reads with
  | pair _ _ corner =>
      rintro address inside
      rw [List.mem_singleton.mp inside]
      exact (corners corner).1
  | split _ _ corner =>
      rintro address inside
      rcases List.mem_cons.mp inside with rfl | inside
      · exact (corners corner).1
      · rw [List.mem_singleton.mp inside]
        exact (corners corner).2
  | mono out =>
      rintro address inside
      rw [List.mem_singleton.mp inside]
      obtain ⟨own, reported, -, -, rfl | ⟨linked, homed⟩⟩ := canonical_origin member
      · exact (audible_sound reported).inside
      · refine absurd linked (not_folded_left ?_)
        have same : cell.output = pairLeft own.output := congrArg Prod.fst homed
        rw [same, linked_pairLeft] at out
        exact out

/-! ### A device that holds what was sent -/

/-- The device behind the messages of some routes, read: what was set reports what was written, and the addresses of
a linked crosspoint report its one register, if they are heard. -/
structure Holds (again : Readout) (device : Option Device) (kind : Kind) (back : ℚ → ℚ) (messages : List Message) :
    Prop where
  written : ∀ (address : ℕ × ℕ) (level : ℚ) (pan : ℤ),
    mixMessage address.1 kind address.2 level pan ∈ messages →
      again.args (.mix address.1 kind address.2) = some (reportOf back level pan)
  shared : ∀ cell ∈ audible again device kind, folded again kind cell = true →
    Path.mix cell.home.1 kind cell.home.2 ∈ messages.map (·.path) →
      ∃ own ∈ audible again device kind, own.address = cell.home ∧ own.level = cell.level ∧ own.pan = cell.pan

/-- A crosspoint of unlinked pairs is read at its own address. -/
theorem canonical_of_audible {again : Readout} (reported : cell ∈ audible again device kind)
    (free : ¬ folded again kind cell = true) : cell ∈ (canonicalCells again device kind).cells.items :=
  mem_canonical.mpr (Or.inl ⟨reported, fun known => free known.1⟩)

theorem linked_next (family : Family) {channel : ℕ} (odd : channel % 2 = 1) :
    linked seen family (channel + 1) = linked seen family channel := by
  rw [← linked_pairLeft, show pairLeft (channel + 1) = pairLeft channel by unfold pairLeft; omega,
    linked_pairLeft]

theorem round1_self {k : ℤ} (low : -650 ≤ k) (high : k ≤ 60) : round1 (tenths k) = tenths k :=
  round1_of_near (abs_le.mpr ⟨by omega, by omega⟩) (by rw [sub_self, abs_zero]; unfold slack; norm_num)

namespace Holds

variable {back : ℚ → ℚ} {again : Readout} {messages : List Message}
  (holds : Holds again device kind back messages)

include holds

/-- A crosspoint that was set is heard as it was written. -/
theorem heard {address : ℕ × ℕ} {level : ℚ} {pan : ℤ}
    (set : mixMessage address.1 kind address.2 level pan ∈ messages)
    (inside : Inside device kind address) (written : levelMin < level) (audible : levelMin < back level)
    (supported : back level ≤ loudest) (balance : -100 ≤ pan ∧ pan ≤ 100) :
    { output := address.1, source := address.2, level := back level, pan } ∈ Dump.audible again device kind :=
  mem_mixEntries.mpr ⟨_, holds.written address level pan set,
    mixCell_report inside written audible supported balance⟩

/-- The register of a linked crosspoint that was set is read at its home. -/
theorem canonical_home (reported : cell ∈ audible again device kind) (homed : cell.home = cell.address)
    (set : Path.mix cell.address.1 kind cell.address.2 ∈ messages.map (·.path)) :
    cell ∈ (canonicalCells again device kind).cells.items := by
  have speaks : ∀ other ∈ audible again device kind, Dump.folded again kind other = true →
      other.home = cell.home → other.level = cell.level ∧ other.pan = cell.pan := by
    intro other member linked home
    obtain ⟨own, known, address, level, pan⟩ := holds.shared other member linked
      (by rw [home, homed]; exact set)
    obtain rfl := audible_unique known reported (address.trans (home.trans homed))
    exact ⟨level.symm, pan.symm⟩
  refine mem_canonical.mpr ?_
  by_cases free : Dump.folded again kind cell = true
  · by_cases even : cell.pan = 0
    · refine Or.inl ⟨reported, fun ⟨_, other, member, linked, home, balance⟩ => balance ?_⟩
      rw [(speaks other member linked home).2]
      exact even
    · refine Or.inr ⟨cell, reported, free, even, speaks, ?_⟩
      unfold Cell.atHome
      rw [homed]
      rfl
  · exact Or.inl ⟨reported, fun known => free known.1⟩

/-- The other half of an unlinked pair that was set implies no route. -/
theorem half_gives_none {own : Cell} (member : own ∈ (canonicalCells again device kind).cells.items)
    {address : ℕ × ℕ} {level : ℚ} (here : own.address = address) (even : address.1 % 2 = 0)
    (unlinked : Dump.linked again .output address.1 = some false)
    (set : mixMessage address.1 kind address.2 level 100 ∈ messages) :
    routeOf again device kind (canonicalCells again device kind).cells own = none := by
  obtain rfl := here
  have free : ¬ Dump.folded again kind own = true := not_folded_left unlinked
  rcases mem_canonical.mp member with ⟨reported, -⟩ | ⟨other, -, linked, -, -, rfl⟩
  · obtain ⟨args, known, read⟩ := mem_mixEntries.mp reported
    have known := Option.some.inj ((holds.written own.address level 100 set).symm.trans known)
    obtain ⟨-, -, -, first, rest, listed, -⟩ := mixCell_some read
    refine routeOf_half even ?_
    rw [← known] at listed
    unfold reportOf at listed
    split_ifs at listed <;> exact (Value.int.inj (List.cons.inj (List.cons.inj listed).2).1).symm
  · exact absurd ((folded_atHome _ _ _).trans linked) free

variable (resolves : Resolves back)

include resolves

/-- A level on the grid that was set is heard. -/
theorem heard_tenths {address : ℕ × ℕ} {k : ℤ} {pan : ℤ} (low : -650 < k) (high : k ≤ 60)
    (set : mixMessage address.1 kind address.2 (tenths k) pan ∈ messages)
    (inside : Inside device kind address) (balance : -100 ≤ pan ∧ pan ≤ 100) :
    { output := address.1, source := address.2, level := back (tenths k), pan }
        ∈ Dump.audible again device kind ∧ back (tenths k) ≤ levelMax := by
  have top : levelMax ≤ loudest := by decide +kernel
  have under : back (tenths k) ≤ levelMax := by
    refine resolves.top _ ?_
    rw [← tenths_top]
    exact tenths_mono high
  exact ⟨holds.heard set inside ((tenths_audible low.le high).mpr low) (resolves.audible low high)
    (under.trans top) balance, under⟩

/-- A half of an unlinked pair that was set is heard. -/
theorem heard_half {address : ℕ × ℕ} {k : ℤ} {pan : ℤ} (low : -650 < k) (high : k ≤ 0)
    (set : mixMessage address.1 kind address.2 (unlinkedLevel (tenths k)) pan ∈ messages)
    (inside : Inside device kind address) (balance : -100 ≤ pan ∧ pan ≤ 100) :
    { output := address.1, source := address.2, level := back (unlinkedLevel (tenths k)), pan }
        ∈ Dump.audible again device kind ∧ levelMin < round1 (back (unlinkedLevel (tenths k))) := by
  have bounds := unlinkedLevel_bounds low high
  have near := abs_le.mp (resolves.near (unlinkedLevel (tenths k)))
  have offset := unlinkedGainOffset_bounds
  have rounded : |round1 (back (unlinkedLevel (tenths k))) - back (unlinkedLevel (tenths k))| ≤ 1 / 20 + slack := by
    refine round1_near ?_
    rw [abs_le]
    constructor <;> linarith
  have rounded := abs_le.mp rounded
  unfold slack at rounded
  refine ⟨holds.heard set inside ?_ ?_ (resolves.loudest _ bounds.2) balance, ?_⟩ <;>
    unfold levelMin <;> linarith

/-- A linked pair that was set is read as its route. -/
theorem reads_pair {output source : ℕ} {k pan : ℤ} (low : -650 < k) (high : k ≤ 60)
    (set : mixMessage output kind source (tenths k) pan ∈ messages) (inside : Inside device kind (output, source))
    (balance : -100 ≤ pan ∧ pan ≤ 100) (corner : isCorner device kind ⟨output, source, tenths k, pan⟩ = true)
    (out : Dump.linked again .output output = some true)
    (own : Dump.linked again kind.family source = some true) :
    ∃ cell ∈ (canonicalCells again device kind).cells.items, cell.address = (output, source) ∧ ∃ addresses,
      Reads again device kind (canonicalCells again device kind).cells cell
        (linkedRoute kind ⟨output, source, tenths k, pan⟩) addresses := by
  obtain ⟨heard, under⟩ := @heard_tenths _ _ _ _ _ holds resolves (output, source) _ _ low high set inside balance
  have rounded := resolves.round1 low.le high
  have same : linkedRoute kind ⟨output, source, back (tenths k), pan⟩
      = linkedRoute kind ⟨output, source, tenths k, pan⟩ := by
    unfold linkedRoute
    dsimp only
    rw [rounded, round1_self low.le high]
    rfl
  have home := corner_home corner
  rw [← same]
  refine ⟨_, holds.canonical_home heard home (List.mem_map_of_mem set), rfl, _,
    .pair out own corner under fun _ => ?_⟩
  show levelMin < round1 (back (tenths k))
  rw [rounded]
  exact (tenths_audible low.le high).mpr low

/-- So is a crosspoint of two channels. -/
theorem reads_mono {output source : ℕ} {k : ℤ} (low : -650 < k) (high : k ≤ 60)
    (set : mixMessage output kind source (tenths k) 0 ∈ messages) (inside : Inside device kind (output, source))
    (out : Dump.linked again .output output = some false)
    (own : Dump.linked again kind.family source = some false) :
    ∃ cell ∈ (canonicalCells again device kind).cells.items, cell.address = (output, source) ∧ ∃ addresses,
      Reads again device kind (canonicalCells again device kind).cells cell
        (monoRoute kind ⟨output, source, tenths k, 0⟩) addresses := by
  obtain ⟨heard, under⟩ := @heard_tenths _ _ _ _ _ holds resolves (output, source) _ _ low high set inside
    (by norm_num)
  have same : monoRoute kind ⟨output, source, back (tenths k), 0⟩
      = monoRoute kind ⟨output, source, tenths k, 0⟩ := by
    unfold monoRoute
    dsimp only
    rw [resolves.round1 low.le high, round1_self low.le high]
  rw [← same]
  exact ⟨_, canonical_of_audible heard (not_folded_left out), rfl, _, .mono out own rfl under⟩

/-- So are the two halves of an unlinked pair. -/
theorem reads_split {output source : ℕ} {k : ℤ} (low : -650 < k) (high : k ≤ 0)
    (first : mixMessage output kind source (unlinkedLevel (tenths k)) (-100) ∈ messages)
    (second : mixMessage (output + 1) kind source (unlinkedLevel (tenths k)) 100 ∈ messages)
    (inside : Inside device kind (output, source)) (inside' : Inside device kind (output + 1, source))
    (corner : isCorner device kind ⟨output, source, tenths k, 0⟩ = true)
    (out : Dump.linked again .output output = some false)
    (own : Dump.linked again kind.family source = some true) {cell : Cell}
    (asked : splitLevel cell.level = tenths k) (here : cell.address = (output, source)) :
    ∃ cell' ∈ (canonicalCells again device kind).cells.items, cell'.address = (output, source) ∧ ∃ addresses,
      Reads again device kind (canonicalCells again device kind).cells cell' (splitRoute kind cell) addresses := by
  obtain ⟨heard, stays⟩ := @heard_half _ _ _ _ _ holds resolves (output, source) _ _ low high first inside
    (by norm_num)
  obtain ⟨other, -⟩ := @heard_half _ _ _ _ _ holds resolves (output + 1, source) _ _ low high second inside'
    (by norm_num)
  have level := resolves.splitLevel low high
  have same : splitRoute kind ⟨output, source, back (unlinkedLevel (tenths k)), -100⟩ = splitRoute kind cell := by
    obtain ⟨rfl, rfl⟩ := Prod.mk.inj here
    unfold splitRoute
    dsimp only
    rw [level, asked]
    rfl
  have next : Dump.linked again .output (output + 1) = some false := by
    rw [linked_next .output (isCorner_odd corner).1]
    exact out
  rw [← same]
  refine ⟨_, canonical_of_audible heard (not_folded_left out), rfl, _,
    .split out own corner rfl (hasOtherHalf_iff.mpr ⟨_, (Keyed.get?_eq_some _ _ _).mpr
      ⟨canonical_of_audible other (not_folded_left next), rfl⟩, rfl, ?_⟩) stays ?_ ?_⟩
  · rw [sub_self]
    decide +kernel
  · show levelMin < splitLevel (back (unlinkedLevel (tenths k)))
    rw [level]
    exact (tenths_audible low.le (by omega)).mpr low
  · show splitLevel (back (unlinkedLevel (tenths k))) ≤ 0
    rw [level, ← tenths_zero]
    exact tenths_mono high

end Holds

/-! ### The routes again -/

section Again

variable {back : ℚ → ℚ} {again : Readout}

theorem Redumped.linked {routes : List Route} (redumped : Redumped seen device kind back routes again)
    (family : Family) (channel : ℕ) : linked again family channel = linked seen family channel := by
  unfold Dump.linked
  rw [redumped.links, redumped.links]

theorem Redumped.folded {routes : List Route} (redumped : Redumped seen device kind back routes again)
    (cell : Cell) : folded again kind cell = folded seen kind cell := by
  unfold Dump.folded
  rw [redumped.linked, redumped.linked]

theorem Redumped.holds {routes : List Route} (redumped : Redumped seen device kind back routes again) :
    Holds again device kind back (routes.flatMap cellMessages) where
  written := redumped.written
  shared := fun cell member linked set =>
    redumped.shared cell member ((redumped.folded cell).symm.trans linked) set

/-- The messages of a route that was made are those of the dump. -/
theorem sent_of_reads {route : Route} {addresses : List (ℕ × ℕ)}
    (member : cell ∈ (canonicalCells seen device kind).cells.items)
    (reads : Reads seen device kind (canonicalCells seen device kind).cells cell route addresses) :
    (∀ message ∈ cellMessages route, message ∈ (routesFromObserved seen device kind).1.flatMap cellMessages)
      ∧ ∀ address ∈ addresses, Sets (routesFromObserved seen device kind).1 kind address := by
  have made := mem_routesFromObserved.mpr ⟨cell, member, addresses, reads⟩
  have sent : ∀ message ∈ cellMessages route,
      message ∈ (routesFromObserved seen device kind).1.flatMap cellMessages := fun message own =>
    List.mem_flatMap.mpr ⟨route, made, own⟩
  refine ⟨sent, fun address own => ?_⟩
  have path : Path.mix address.1 kind address.2 ∈ (cellMessages route).map (·.path) := by
    rw [reads.paths]
    exact List.mem_map.mpr ⟨address, own, rfl⟩
  obtain ⟨message, own, path⟩ := List.mem_map.mp path
  exact List.mem_map.mpr ⟨message, sent message own, path⟩

/-- A crosspoint the dump sets is one of those a route of it accounts for. -/
theorem sets_iff {address : ℕ × ℕ} : Sets (routesFromObserved seen device kind).1 kind address ↔
    ∃ cell ∈ (canonicalCells seen device kind).cells.items, ∃ route addresses,
      Reads seen device kind (canonicalCells seen device kind).cells cell route addresses
        ∧ address ∈ addresses := by
  constructor
  · intro set
    obtain ⟨message, sent, path⟩ := List.mem_map.mp set
    obtain ⟨route, made, own⟩ := List.mem_flatMap.mp sent
    obtain ⟨cell, member, addresses, reads⟩ := mem_routesFromObserved.mp made
    refine ⟨cell, member, route, addresses, reads, ?_⟩
    have known : message.path ∈ (cellMessages route).map (·.path) := List.mem_map_of_mem own
    rw [reads.paths, path] at known
    obtain ⟨same, inside, equal⟩ := List.mem_map.mp known
    injection equal with out _ source
    rwa [← Prod.ext out source]
  · rintro ⟨cell, member, route, addresses, reads, inside⟩
    exact (sent_of_reads member reads).2 address inside

/-- A linked crosspoint is set at its home or not at all. -/
theorem sets_folded (linked : folded seen kind cell = true)
    (set : Sets (routesFromObserved seen device kind).1 kind cell.address) : cell.home = cell.address := by
  obtain ⟨other, -, route, addresses, reads, inside⟩ := sets_iff.mp set
  have out : Dump.linked seen .output cell.output = some true := by
    unfold folded at linked
    simp only [Bool.and_eq_true, decide_eq_true_eq] at linked
    exact linked.1
  cases reads with
  | pair _ _ corner =>
      have same := List.mem_singleton.mp inside
      rw [home_of_address same, same]
      exact corner_home corner
  | mono unlinked =>
      obtain ⟨same, -⟩ := Prod.mk.inj (List.mem_singleton.mp inside)
      rw [same, unlinked] at out
      cases out
  | split unlinked _ corner =>
      rcases List.mem_cons.mp inside with same | same
      · rw [(Prod.mk.inj same).1, unlinked] at out
        cases out
      · rw [(Prod.mk.inj (List.mem_singleton.mp same)).1, linked_next .output (isCorner_odd corner).1,
          unlinked] at out
        cases out

theorem Redumped.audible_iff {routes : List Route} (redumped : Redumped seen device kind back routes again)
    (free : ¬ Sets routes kind cell.address)
    (apart : ¬(Dump.folded seen kind cell = true ∧ Sets routes kind cell.home)) :
    cell ∈ audible again device kind ↔ cell ∈ audible seen device kind := by
  unfold audible
  rw [mem_mixEntries, mem_mixEntries, redumped.others cell free apart]

/-- A crosspoint that nothing sets is read as it was. -/
theorem Redumped.canonical_iff
    (redumped : Redumped seen device kind back (routesFromObserved seen device kind).1 again)
    (free : ¬ Sets (routesFromObserved seen device kind).1 kind cell.address)
    (apart : ¬(Dump.folded seen kind cell = true
      ∧ Sets (routesFromObserved seen device kind).1 kind cell.home)) :
    cell ∈ (canonicalCells again device kind).cells.items
      ↔ cell ∈ (canonicalCells seen device kind).cells.items := by
  have group : Dump.folded seen kind cell = true → ∀ other : Cell, other.home = cell.home →
      (other ∈ audible again device kind ↔ other ∈ audible seen device kind) := by
    intro linked other home
    have linked' : Dump.folded seen kind other = true := by rwa [folded_of_home seen kind home]
    have unset : ¬ Sets (routesFromObserved seen device kind).1 kind other.home := fun set =>
      apart ⟨linked, home ▸ set⟩
    exact redumped.audible_iff (fun set => unset (by rw [sets_folded linked' set]; exact set))
      fun known => unset known.2
  rw [mem_canonical, mem_canonical, redumped.folded]
  by_cases linked : Dump.folded seen kind cell = true
  · have group := group linked
    refine or_congr (and_congr (group cell rfl) (not_congr (and_congr_right fun _ => ?_))) ?_
    · refine exists_congr fun other => ?_
      rw [redumped.folded]
      constructor
      · exact fun ⟨member, linked, home, balance⟩ => ⟨(group other home).mp member, linked, home, balance⟩
      · exact fun ⟨member, linked, home, balance⟩ => ⟨(group other home).mpr member, linked, home, balance⟩
    · refine exists_congr fun own => ?_
      rw [redumped.folded]
      have agreed : cell = own.atHome → (Agreed again kind (audible again device kind) own
          ↔ Agreed seen kind (audible seen device kind) own) := by
        rintro rfl
        refine forall_congr' fun other => ?_
        rw [redumped.folded]
        constructor
        · exact fun same member linked home =>
            same ((group other (home.trans (Cell.atHome_home own).symm)).mpr member) linked home
        · exact fun same member linked home =>
            same ((group other (home.trans (Cell.atHome_home own).symm)).mp member) linked home
      constructor
      · rintro ⟨member, linked, balance, same, equal⟩
        exact ⟨(group own (equal ▸ (Cell.atHome_home own).symm)).mp member, linked, balance,
          (agreed equal).mp same, equal⟩
      · rintro ⟨member, linked, balance, same, equal⟩
        exact ⟨(group own (equal ▸ (Cell.atHome_home own).symm)).mpr member, linked, balance,
          (agreed equal).mpr same, equal⟩
  · refine or_congr (and_congr (redumped.audible_iff free fun known => linked known.1)
      (iff_of_true (fun known => linked known.1) fun known => linked known.1)) (iff_of_false ?_ ?_)
    · rintro ⟨own, -, known, -, -, rfl⟩
      rw [redumped.folded, ← folded_atHome] at known
      exact linked known
    · rintro ⟨own, -, known, -, -, rfl⟩
      rw [← folded_atHome] at known
      exact linked known

variable (resolves : Resolves back)
  (redumped : Redumped seen device kind back (routesFromObserved seen device kind).1 again)

include resolves redumped

variable (modelled : ∀ known, device = some known → known ∈ devices)

include modelled

/-- A route above the mute floor is made again. -/
theorem Redumped.kept {route : Route} {addresses : List (ℕ × ℕ)}
    (member : cell ∈ (canonicalCells seen device kind).cells.items)
    (reads : Reads seen device kind (canonicalCells seen device kind).cells cell route addresses)
    (above : levelMin < route.level) :
    ∃ own ∈ (canonicalCells again device kind).cells.items, own.address = cell.address ∧ ∃ addresses,
      Reads again device kind (canonicalCells again device kind).cells own route addresses := by
  have size := canonical_size member
  have balance := canonical_balance member
  obtain ⟨sent, sets⟩ := sent_of_reads member reads
  have inside := reads.inside modelled member
  have holds := redumped.holds
  cases reads with
  | pair out source corner level stays =>
      obtain ⟨k, written, low, high⟩ := round1_tenths size.1 level
      have low : -650 < k := (tenths_audible low high).mp (written ▸ above)
      have set : mixMessage cell.output kind cell.source (tenths k) cell.pan
          ∈ (routesFromObserved seen device kind).1.flatMap cellMessages :=
        written ▸ sent _ (List.mem_singleton.mpr rfl)
      have same : linkedRoute kind ⟨cell.output, cell.source, tenths k, cell.pan⟩ = linkedRoute kind cell := by
        unfold linkedRoute
        dsimp only
        rw [round1_self low.le high, written]
        rfl
      rw [← same]
      exact holds.reads_pair resolves low high set (inside _ (List.mem_singleton.mpr rfl)) balance corner
        ((redumped.linked _ _).trans out) ((redumped.linked _ _).trans source)
  | mono out source even level =>
      obtain ⟨k, written, low, high⟩ := round1_tenths size.1 level
      have low : -650 < k := (tenths_audible low high).mp (written ▸ above)
      have set : mixMessage cell.output kind cell.source (tenths k) 0
          ∈ (routesFromObserved seen device kind).1.flatMap cellMessages :=
        written ▸ sent _ (List.mem_singleton.mpr rfl)
      have same : monoRoute kind ⟨cell.output, cell.source, tenths k, 0⟩ = monoRoute kind cell := by
        unfold monoRoute
        dsimp only
        rw [round1_self low.le high, written]
      rw [← same]
      exact holds.reads_mono resolves low high set (inside _ (List.mem_singleton.mpr rfl))
        ((redumped.linked _ _).trans out) ((redumped.linked _ _).trans source)
  | split out source corner left half stays audible level =>
      obtain ⟨k, written, low, high⟩ := splitLevel_tenths size.1 size.2 audible level
      exact holds.reads_split resolves low high (written ▸ sent _ List.mem_cons_self)
        (written ▸ sent _ (List.mem_cons_of_mem _ List.mem_cons_self)) (inside _ List.mem_cons_self)
        (inside _ (List.mem_cons_of_mem _ List.mem_cons_self)) corner ((redumped.linked _ _).trans out)
        ((redumped.linked _ _).trans source) written rfl

/-- No other route is made. -/
theorem Redumped.only (above : ∀ route ∈ (routesFromObserved seen device kind).1, levelMin < route.level)
    {own : Cell} (member : own ∈ (canonicalCells again device kind).cells.items) {route : Route}
    {addresses : List (ℕ × ℕ)}
    (reads : Reads again device kind (canonicalCells again device kind).cells own route addresses) :
    route ∈ (routesFromObserved seen device kind).1 := by
  by_cases set : Sets (routesFromObserved seen device kind).1 kind own.address
  · obtain ⟨cell, known, made, claimed, reads', inside⟩ := sets_iff.mp set
    have listed := mem_routesFromObserved.mpr ⟨cell, known, claimed, reads'⟩
    have same : own.address = cell.address → route ∈ (routesFromObserved seen device kind).1 := by
      intro equal
      obtain ⟨again', member', address, _, reads''⟩ :=
        redumped.kept resolves modelled known reads' (above made listed)
      obtain rfl := List.inj_on_of_nodup_map (canonicalCells again device kind).cells.distinct member' member
        (address.trans equal.symm)
      rw [reads.unique reads'']
      exact listed
    have sent := (sent_of_reads known reads').1
    cases reads' with
    | pair => exact same (List.mem_singleton.mp inside)
    | mono => exact same (List.mem_singleton.mp inside)
    | split unlinked _ corner =>
        rcases List.mem_cons.mp inside with equal | equal
        · exact same equal
        · have odd := (isCorner_odd corner).1
          have none := redumped.holds.half_gives_none member (List.mem_singleton.mp equal)
            (by show (cell.output + 1) % 2 = 0; omega)
            (by rw [redumped.linked, linked_next .output odd]; exact unlinked)
            (sent _ (List.mem_cons_of_mem _ List.mem_cons_self))
          rw [routeOf_eq_some.mpr ⟨_, reads⟩] at none
          cases none
  by_cases shared : Dump.folded seen kind own = true ∧ Sets (routesFromObserved seen device kind).1 kind own.home
  · -- another address of a register that was set
    rw [← redumped.folded] at shared
    have out : Dump.linked again .output own.output = some true := by
      have linked := shared.1
      unfold Dump.folded at linked
      simp only [Bool.and_eq_true, decide_eq_true_eq] at linked
      exact linked.1
    cases reads with
    | pair _ _ corner => exact absurd (corner_home corner ▸ shared.2) set
    | mono unlinked =>
        rw [unlinked] at out
        cases out
    | split unlinked =>
        rw [unlinked] at out
        cases out
  · have held := (redumped.canonical_iff set shared).mp member
    refine mem_routesFromObserved.mpr ⟨own, held, ?_⟩
    cases reads with
    | pair out source corner level stays =>
        exact ⟨_, .pair (redumped.linked _ _ ▸ out) (redumped.linked _ _ ▸ source) corner level stays⟩
    | mono out source even level =>
        exact ⟨_, .mono (redumped.linked _ _ ▸ out) (redumped.linked _ _ ▸ source) even level⟩
    | split out source corner left half stays audible level =>
        have out' : Dump.linked seen .output own.output = some false := redumped.linked _ _ ▸ out
        have source' : Dump.linked seen kind.family own.source = some true := redumped.linked _ _ ▸ source
        have odd := (isCorner_odd corner).1
        obtain ⟨other, get, right, alike⟩ := hasOtherHalf_iff.mp half
        obtain ⟨member', address⟩ := (Keyed.get?_eq_some _ _ _).mp get
        obtain ⟨equal, equal'⟩ := Prod.mk.inj address
        have next : Dump.linked seen .output other.output = some false := by
          rw [equal, linked_next .output odd]
          exact out'
        have unset : ¬ Sets (routesFromObserved seen device kind).1 kind other.address := by
          intro set'
          obtain ⟨cell, known, made, claimed, reads', inside⟩ := sets_iff.mp set'
          cases reads' with
          | pair linked =>
              rw [(Prod.mk.inj (List.mem_singleton.mp inside)).1, linked] at next
              cases next
          | mono _ unlinked =>
              rw [← equal', (Prod.mk.inj (List.mem_singleton.mp inside)).2, unlinked] at source'
              cases source'
          | split unlinked linked corner' left' half' stays' audible' level' =>
              rcases List.mem_cons.mp inside with same | same
              · have := (isCorner_odd corner').1
                rw [← (Prod.mk.inj same).1, equal] at this
                omega
              · obtain ⟨output, source⟩ := Prod.mk.inj (List.mem_singleton.mp same)
                have here : own.address = cell.address := Prod.ext
                  (show own.output = cell.output by omega) (show own.source = cell.source by omega)
                exact set (sets_iff.mpr ⟨cell, known, _, _,
                  .split unlinked linked corner' left' half' stays' audible' level',
                  here ▸ List.mem_cons_self⟩)
        have held' := (redumped.canonical_iff unset fun known => not_folded_left next known.1).mp member'
        exact ⟨_, .split out' source' corner left (hasOtherHalf_iff.mpr ⟨other,
          (Keyed.get?_eq_some _ _ _).mpr ⟨held', address⟩, right, alike⟩) stays audible level⟩

omit resolves modelled in
/-- A route on the mute floor is gone. -/
theorem Redumped.gone {route : Route} (made : route ∈ (routesFromObserved seen device kind).1)
    (floor : ¬ levelMin < route.level) : route ∉ (routesFromObserved again device kind).1 := by
  intro remade
  obtain ⟨cell, member, addresses, reads⟩ := mem_routesFromObserved.mp made
  obtain ⟨own, member', addresses', reads'⟩ := mem_routesFromObserved.mp remade
  have here : own.address = cell.address := reads'.address.symm.trans reads.address
  obtain ⟨sent, sets⟩ := sent_of_reads member reads
  -- what was written at the crosspoint is the mute, without a balance
  have muted : ∃ level ≤ levelMin, mixMessage cell.address.1 kind cell.address.2 level 0
      ∈ (routesFromObserved seen device kind).1.flatMap cellMessages ∧ cell.address ∈ addresses := by
    cases reads with
    | pair _ _ _ _ stays =>
        have even : cell.pan = 0 := by
          by_contra balance
          exact floor (stays balance)
        refine ⟨round1 cell.level, not_lt.mp floor, ?_, List.mem_singleton.mpr rfl⟩
        rw [← even]
        exact sent _ (List.mem_singleton.mpr rfl)
    | mono => exact ⟨_, not_lt.mp floor, sent _ (List.mem_singleton.mpr rfl), List.mem_singleton.mpr rfl⟩
    | split _ _ _ _ _ _ audible => exact absurd audible floor
  obtain ⟨level, low, set, inside⟩ := muted
  have silent : ∀ other ∈ audible again device kind, other.address ≠ cell.address := by
    intro other reported same
    obtain ⟨args, known, read⟩ := mem_mixEntries.mp reported
    have known := Option.some.inj ((redumped.written cell.address level 0 set).symm.trans
      (same ▸ known : again.args (.mix cell.address.1 kind cell.address.2) = some args))
    rw [← known] at read
    exact mixCell_muted low other read
  rcases mem_canonical.mp member' with ⟨reported, -⟩ | ⟨other, reported, linked, balance, -, rfl⟩
  · exact silent own reported here
  · rw [redumped.folded] at linked
    have home : other.home = cell.address := here
    obtain ⟨own, known, address, -⟩ := redumped.shared other reported linked (home ▸ sets _ inside)
    exact silent own known (address.trans home)

end Again

/-- A desk with one crosspoint of unlinked pairs. -/
def lone (args : Args) : Readout where
  items := [(.link .output 5, [.int 0]), (.link .input 7, [.int 0]), (.mix 5 .input 7, args)]
  distinct := show [Path.link .output 5, .link .input 7, .mix 5 .input 7].Nodup by decide

theorem lone_args {args : Args} (path : Path) : (lone args).args path
    = if path = .link .output 5 ∨ path = .link .input 7 then some [.int 0]
      else if path = .mix 5 .input 7 then some args else none := by
  unfold Readout.args lone Keyed.get?
  by_cases out : path = .link .output 5
  · subst out
    rfl
  by_cases source : path = .link .input 7
  · subst source
    rfl
  by_cases cell : path = .mix 5 .input 7
  · subst cell
    rfl
  · simp [List.find?, out, source, cell, Ne.symm out, Ne.symm source, Ne.symm cell]

theorem lone_unlinked {args : Args} (cell : Cell) : ¬ folded (lone args) .input cell = true := by
  intro linked
  unfold folded at linked
  simp only [Bool.and_eq_true, decide_eq_true_eq] at linked
  have link : ∀ channel : ℕ, Path.link .output channel ≠ .mix 5 .input 7 := fun _ same => by cases same
  have out := linked.1
  unfold Dump.linked at out
  rw [lone_args, lone_args, if_neg (link _), if_neg (link _)] at out
  split_ifs at out <;> cases out

/-- The device behind the route of its one crosspoint. -/
theorem lone_redumped {device : Option Device} {level : ℚ}
    (made : (routesFromObserved (lone [.real level, .int 0]) device .input).1
      = [monoRoute .input ⟨5, 7, level, 0⟩]) :
    Redumped (lone [.real level, .int 0]) device .input id
      (routesFromObserved (lone [.real level, .int 0]) device .input).1
      (lone (reportOf id (round1 level) 0)) := by
  rw [made]
  constructor
  · intro family channel
    rw [lone_args, lone_args]
    split_ifs with known other
    · rfl
    · cases other
    · rfl
  · intro address written pan set
    have same : mixMessage address.1 .input address.2 written pan = mixMessage 5 .input 7 (round1 level) 0 :=
      List.mem_singleton.mp set
    unfold mixMessage at same
    injection same with path _ args
    injection path with out _ source
    injection args with first rest
    injection rest with second
    rw [out, source, Value.int.inj second, PyFloat.finite.inj (Value.float.inj first)]
    rfl
  · exact fun cell _ linked => absurd linked (lone_unlinked cell)
  · intro cell unset _
    have other : Path.mix cell.output .input cell.source ≠ .mix 5 .input 7 := fun same =>
      unset (List.mem_map.mpr ⟨_, List.mem_singleton.mpr rfl, same.symm⟩)
    rw [lone_args, lone_args, if_neg other, if_neg other]

theorem id_resolves : Resolves id where
  near level := by
    rw [id, sub_self, abs_zero]
    norm_num
  top _ below := below
  loudest level below := by
    have bound : unlinkedGainOffset ≤ loudest := by decide +kernel
    exact le_trans below bound

end OscmixDesk.Dump
