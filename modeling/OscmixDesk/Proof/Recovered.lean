/-
**What a dump recovers of a device's state.**

The crosspoints that are reported above the mute floor (`Reported`) become the entries of the dump
(`mem_audible`); what is reported otherwise, and is no silence, is named in an omission (`refused_omitted`).
Those of a linked output and a linked source are one register reported at several addresses: with a balance
they are folded onto one entry, or dropped where they disagree (`mem_canonical`). Of the other registers those
that a section may set become settings, or are named (`channelsFromObserved_accounts`).
-/

import OscmixDesk.Proof.Levels

namespace OscmixDesk.Dump

/-! ### Pairs -/

@[simp] theorem pairLeft_pairLeft (channel : ℕ) : pairLeft (pairLeft channel) = pairLeft channel := by
  unfold pairLeft
  omega

@[simp] theorem linked_pairLeft (seen : Readout) (family : Family) (channel : ℕ) :
    linked seen family (pairLeft channel) = linked seen family channel := by
  unfold linked
  rw [pairLeft_pairLeft]

/-- The crosspoint at the address of its pairs. -/
def Cell.atHome (cell : Cell) : Cell :=
  { cell with output := cell.home.1, source := cell.home.2 }

@[simp] theorem Cell.atHome_address (cell : Cell) : cell.atHome.address = cell.home := rfl

@[simp] theorem Cell.atHome_home (cell : Cell) : cell.atHome.home = cell.home :=
  Prod.ext (pairLeft_pairLeft _) (pairLeft_pairLeft _)

@[simp] theorem folded_atHome (seen : Readout) (kind : Kind) (cell : Cell) :
    folded seen kind cell.atHome = folded seen kind cell := by
  unfold folded
  show (decide (linked seen .output (pairLeft cell.output) = some true)
    && decide (linked seen kind.family (pairLeft cell.source) = some true)) = _
  rw [linked_pairLeft, linked_pairLeft]

/-- Addresses that are one have one home, and are of linked pairs or not alike. -/
theorem home_of_address {first second : Cell} (same : first.address = second.address) :
    first.home = second.home := by
  obtain ⟨out, source⟩ := Prod.mk.inj same
  unfold Cell.home
  rw [out, source]

theorem folded_of_home {first second : Cell} (seen : Readout) (kind : Kind)
    (same : first.home = second.home) : folded seen kind first = folded seen kind second := by
  rw [← folded_atHome, ← folded_atHome seen kind second]
  unfold Cell.atHome
  rw [same]
  rfl

/-! ### The entries -/

/-- The crosspoint a report gives, if it is of the kind and not muted. -/
def heard (device : Option Device) (kind : Kind) (report : Path × Args) : Option Cell :=
  match report.1 with
  | .mix output own source =>
      if own = kind then (mixCell device kind output source report.2).toOption.join else none
  | _ => none

variable {device : Option Device} {kind : Kind}

/-- What is known of a crosspoint that was read. -/
structure Sound (device : Option Device) (kind : Kind) (cell : Cell) : Prop where
  inside : device.any (fun known => known.has "output" cell.output
    && known.has kind.family.name cell.source) = true
  audible : levelMin < cell.level
  supported : cell.level ≤ loudest
  balance : -100 ≤ cell.pan ∧ cell.pan ≤ 100

theorem mixCell_some {output source : ℕ} {args : Args} {cell : Cell}
    (read : mixCell device kind output source args = .ok (some cell)) :
    cell.output = output ∧ cell.source = source ∧ Sound device kind cell
      ∧ ∃ first rest, args = first :: .int cell.pan :: rest ∧ finite first = .ok cell.level := by
  unfold mixCell at read
  split_ifs at read with inside
  rw [Bool.not_eq_true', Bool.not_eq_false] at inside
  rcases args with _ | ⟨first, rest⟩
  · cases read
  dsimp only at read
  by_cases infinite : first = .float (.infinite true)
  · rw [if_pos infinite] at read
    cases read
  rw [if_neg infinite] at read
  rcases known : finite first with problem | level
  · rw [known] at read
    cases read
  rw [known] at read
  dsimp only at read
  by_cases low : level ≤ levelMin
  · rw [if_pos low] at read
    cases read
  rw [if_neg low] at read
  split_ifs at read with high
  split at read
  · cases read
  · next pan more =>
      split_ifs at read with balance
      obtain rfl := Option.some.inj (Except.ok.inj read)
      exact ⟨rfl, rfl, ⟨inside, not_le.mp low, not_lt.mp high, balance⟩, first, more, rfl, known⟩
  · cases read

theorem heard_some {report : Path × Args} {cell : Cell} (read : heard device kind report = some cell) :
    report.1 = .mix cell.output kind cell.source
      ∧ mixCell device kind cell.output cell.source report.2 = .ok (some cell) := by
  unfold heard at read
  split at read
  · next output own source path =>
      split_ifs at read with same
      rcases found : mixCell device kind output source report.2 with problem | found'
      · rw [found] at read
        cases read
      · rw [found] at read
        obtain rfl : found' = some cell := by
          cases found' with
          | none => cases read
          | some other => exact read
        obtain ⟨rfl, rfl, -⟩ := mixCell_some found
        exact ⟨by rw [path, same], found⟩
  · cases read

theorem take_cells (held : Gathered) (report : Path × Args) :
    (held.take device kind report).cells
      = (heard device kind report).elim held.cells held.cells.put := by
  obtain ⟨path, args⟩ := report
  unfold Gathered.take heard
  cases path with
  | channel family number setting => rfl
  | global family option => rfl
  | mix output own source =>
      dsimp only
      split_ifs
      · rcases mixCell device kind output source args with problem | _ | cell <;> rfl
      · rfl

theorem foldl_take (reports : List (Path × Args)) (held : Gathered) :
    (reports.foldl (Gathered.take device kind) held).cells
      = (reports.filterMap (heard device kind)).foldl Keyed.put held.cells := by
  induction reports generalizing held with
  | nil => rfl
  | cons report rest ih =>
      rw [List.foldl_cons, ih, take_cells]
      cases read : heard device kind report with
      | none => rw [List.filterMap_cons_none read]; rfl
      | some cell => rw [List.filterMap_cons_some read]; rfl

/-- The crosspoints reported have their own addresses. -/
theorem heard_distinct (seen : Readout) :
    ((seen.items.filterMap (heard device kind)).map Cell.address).Nodup := by
  have paths := seen.distinct
  generalize seen.items = reports at paths
  induction reports with
  | nil => exact List.nodup_nil
  | cons report rest ih =>
      obtain ⟨fresh, rest'⟩ := List.nodup_cons.mp paths
      cases read : heard device kind report with
      | none => rw [List.filterMap_cons_none read]; exact ih rest'
      | some cell =>
          rw [List.filterMap_cons_some read, List.map_cons, List.nodup_cons]
          refine ⟨fun known => ?_, ih rest'⟩
          obtain ⟨other, member, same⟩ := List.mem_map.mp known
          obtain ⟨report', member', read'⟩ := List.mem_filterMap.mp member
          obtain ⟨out, source⟩ := Prod.mk.inj same
          refine fresh (List.mem_map.mpr ⟨report', member', ?_⟩)
          rw [(heard_some read).1, (heard_some read').1, out, source]

/-- The entries are the crosspoints reported, in the order of their reports. -/
theorem mixEntries_items (seen : Readout) :
    (mixEntries seen device kind).cells.items = seen.items.filterMap (heard device kind) := by
  unfold mixEntries
  rw [foldl_take]
  exact Keyed.items_ofList (heard_distinct seen)

theorem mem_mixEntries {seen : Readout} {cell : Cell} :
    cell ∈ (mixEntries seen device kind).cells.items
      ↔ ∃ args, seen.args (.mix cell.output kind cell.source) = some args
        ∧ mixCell device kind cell.output cell.source args = .ok (some cell) := by
  rw [mixEntries_items, List.mem_filterMap]
  constructor
  · rintro ⟨report, member, read⟩
    obtain ⟨path, found⟩ := heard_some read
    refine ⟨report.2, ?_, found⟩
    unfold Readout.args
    rw [(Keyed.get?_eq_some _ _ _).mpr ⟨member, path⟩]
    rfl
  · rintro ⟨args, reported, found⟩
    unfold Readout.args at reported
    obtain ⟨report, member, rfl⟩ := Option.map_eq_some_iff.mp reported
    obtain ⟨member, path⟩ := (Keyed.get?_eq_some _ _ _).mp member
    refine ⟨report, member, ?_⟩
    unfold heard
    rw [path]
    dsimp only
    rw [if_pos rfl, found]
    rfl

/-! ### What a readout says of the matrix -/

/-- A report of silence: its level is not above the mute floor. -/
def Silent (args : Args) : Prop :=
  ∃ first rest, args = first :: rest
    ∧ (first = .float (.infinite true) ∨ ∃ level, finite first = .ok level ∧ level ≤ levelMin)

/-- What a report states of a crosspoint of the device: a level the wire can carry, and a balance. -/
structure States (device : Option Device) (kind : Kind) (args : Args) (cell : Cell) : Prop where
  inside : device.any (fun known => known.has "output" cell.output
    && known.has kind.family.name cell.source) = true
  stated : ∃ first rest, args = first :: .int cell.pan :: rest ∧ finite first = .ok cell.level
  supported : cell.level ≤ loudest
  balance : -100 ≤ cell.pan ∧ cell.pan ≤ 100

/-- A crosspoint that a readout reports above the mute floor. -/
def Reported (seen : Readout) (device : Option Device) (kind : Kind) (cell : Cell) : Prop :=
  levelMin < cell.level ∧ ∃ args, seen.args (.mix cell.output kind cell.source) = some args
    ∧ States device kind args cell

/-- A report is silence, or states a crosspoint above the mute floor, or is refused. -/
theorem mixCell_cases (device : Option Device) (kind : Kind) (output source : ℕ) (args : Args) :
    (mixCell device kind output source args = .ok none ∧ Silent args)
      ∨ (∃ cell, mixCell device kind output source args = .ok (some cell) ∧ cell.address = (output, source)
        ∧ levelMin < cell.level ∧ States device kind args cell)
      ∨ ∃ reason, mixCell device kind output source args = .error reason := by
  rcases read : mixCell device kind output source args with reason | _ | cell
  · exact Or.inr (Or.inr ⟨reason, rfl⟩)
  · refine Or.inl ⟨rfl, ?_⟩
    unfold mixCell at read
    split_ifs at read
    split at read
    · cases read
    next first rest =>
    refine ⟨first, rest, rfl, ?_⟩
    split_ifs at read with infinite
    · exact Or.inl infinite
    split at read
    · cases read
    next level known =>
    split_ifs at read with low
    · exact Or.inr ⟨level, known, low⟩
    split at read
    · cases read
    · split_ifs at read
      cases read
    · cases read
  · obtain ⟨out, own, sound, first, rest, listed, known⟩ := mixCell_some read
    exact Or.inr (Or.inl ⟨cell, rfl, Prod.ext out own, sound.audible, sound.inside, ⟨first, rest, listed, known⟩,
      sound.supported, sound.balance⟩)

/-- A crosspoint that is stated is read. -/
theorem mixCell_of_states {args : Args} {cell : Cell} (states : States device kind args cell)
    (above : levelMin < cell.level) :
    mixCell device kind cell.output cell.source args = .ok (some cell) := by
  obtain ⟨first, rest, rfl, known⟩ := states.stated
  have other : first ≠ .float (.infinite true) := by
    rintro rfl
    cases known
  unfold mixCell
  rw [if_neg (by simp [states.inside])]
  dsimp only
  rw [if_neg other, known]
  dsimp only
  rw [if_neg (not_le.mpr above), if_neg (not_lt.mpr states.supported), if_pos states.balance]

/-! ### One register at several addresses -/

section Folding

variable (seen : Readout) (kind : Kind) (all : List Cell)

/-- Whether a balance is reported at an address of a linked crosspoint. -/
def Balanced (home : ℕ × ℕ) : Prop :=
  ∃ cell ∈ all, folded seen kind cell = true ∧ cell.home = home ∧ cell.pan ≠ 0

/-- Whether every address of a linked crosspoint reports what this one does. -/
def Agreed (own : Cell) : Prop :=
  ∀ cell ∈ all, folded seen kind cell = true → cell.home = own.home →
    cell.level = own.level ∧ cell.pan = own.pan

/-- The crosspoints left, once the linked ones of some homes are folded. -/
structure Folding (before : List Omitted) (done : List (ℕ × ℕ)) (now : Gathered) : Prop where
  cells : ∀ cell, cell ∈ now.cells.items ↔
    (cell ∈ all ∧ ¬(folded seen kind cell = true ∧ cell.home ∈ done ∧ Balanced seen kind all cell.home))
      ∨ ∃ own ∈ all, folded seen kind own = true ∧ own.home ∈ done ∧ own.pan ≠ 0
        ∧ Agreed seen kind all own ∧ cell = own.atHome
  omitted : ∀ item, item ∈ now.omitted ↔ item ∈ before
    ∨ ∃ own ∈ all, folded seen kind own = true ∧ own.home ∈ done ∧ Balanced seen kind all own.home
      ∧ ¬ Agreed seen kind all own ∧ item = ⟨.mix own.home.1 kind own.home.2, .contradictory⟩

variable {seen kind all}

/-- The reports of one linked crosspoint. -/
def aliasesOf (seen : Readout) (kind : Kind) (all : List Cell) (home : ℕ × ℕ) : List Cell :=
  (all.filter (folded seen kind)).filter (·.home = home)

theorem mem_aliasesOf {home : ℕ × ℕ} {cell : Cell} :
    cell ∈ aliasesOf seen kind all home
      ↔ cell ∈ all ∧ folded seen kind cell = true ∧ cell.home = home := by
  unfold aliasesOf
  rw [List.mem_filter, List.mem_filter, decide_eq_true_eq, and_assoc]

theorem not_balanced_iff {home : ℕ × ℕ} :
    (aliasesOf seen kind all home).all (·.pan = 0) = true ↔ ¬ Balanced seen kind all home := by
  rw [List.all_eq_true]
  constructor
  · rintro none ⟨cell, member, linked, own, balance⟩
    exact balance (of_decide_eq_true (none cell (mem_aliasesOf.mpr ⟨member, linked, own⟩)))
  · intro none cell member
    obtain ⟨member, linked, own⟩ := mem_aliasesOf.mp member
    by_contra balance
    exact none ⟨cell, member, linked, own, fun zero => balance (decide_eq_true zero)⟩

/-- A linked crosspoint is among those of its home. -/
theorem address_mem_aliasesOf (distinct : (all.map Cell.address).Nodup) {home : ℕ × ℕ} {cell : Cell}
    (member : cell ∈ all) : cell.address ∈ (aliasesOf seen kind all home).map Cell.address
      ↔ folded seen kind cell = true ∧ cell.home = home := by
  constructor
  · intro known
    obtain ⟨other, own, same⟩ := List.mem_map.mp known
    obtain ⟨member', linked, homed⟩ := mem_aliasesOf.mp own
    obtain rfl := List.inj_on_of_nodup_map distinct member' member same
    exact ⟨linked, homed⟩
  · rintro ⟨linked, homed⟩
    exact List.mem_map_of_mem (mem_aliasesOf.mpr ⟨member, linked, homed⟩)

/-- A home without a balance changes nothing. -/
theorem Folding.plain {before : List Omitted} {done : List (ℕ × ℕ)} {now : Gathered}
    (folding : Folding seen kind all before done now) {home : ℕ × ℕ}
    (plain : ¬ Balanced seen kind all home) : Folding seen kind all before (done ++ [home]) now := by
  have among : ∀ own : Cell, own.home ∈ done ++ [home] → Balanced seen kind all own.home →
      own.home ∈ done := by
    intro own known balanced
    rcases List.mem_append.mp known with known | last
    · exact known
    · rw [List.mem_singleton.mp last] at balanced
      exact absurd balanced plain
  have more : ∀ own : Cell, own.home ∈ done → own.home ∈ done ++ [home] := fun own known =>
    List.mem_append_left _ known
  constructor
  · intro cell
    rw [folding.cells]
    constructor
    · rintro (⟨member, free⟩ | ⟨own, member, linked, known, rest⟩)
      · exact Or.inl ⟨member, fun ⟨linked, known, balanced⟩ =>
          free ⟨linked, among cell known balanced, balanced⟩⟩
      · exact Or.inr ⟨own, member, linked, more own known, rest⟩
    · rintro (⟨member, free⟩ | ⟨own, member, linked, known, balance, rest⟩)
      · exact Or.inl ⟨member, fun ⟨linked, known, balanced⟩ =>
          free ⟨linked, more cell known, balanced⟩⟩
      · exact Or.inr ⟨own, member, linked, among own known ⟨own, member, linked, rfl, balance⟩, balance, rest⟩
  · intro item
    rw [folding.omitted]
    constructor
    · rintro (old | ⟨own, member, linked, known, rest⟩)
      · exact Or.inl old
      · exact Or.inr ⟨own, member, linked, more own known, rest⟩
    · rintro (old | ⟨own, member, linked, known, balanced, rest⟩)
      · exact Or.inl old
      · exact Or.inr ⟨own, member, linked, among own known balanced, balanced, rest⟩

/-- What is left when the crosspoints of a home with a balance are taken out. -/
theorem Folding.left {before : List Omitted} {done : List (ℕ × ℕ)} {now : Gathered}
    (folding : Folding seen kind all before done now) (distinct : (all.map Cell.address).Nodup)
    {home : ℕ × ℕ} (fresh : home ∉ done) (balanced : Balanced seen kind all home) (cell : Cell) :
    cell ∈ (now.cells.filter fun cell =>
        !((aliasesOf seen kind all home).map Cell.address).contains cell.address).items ↔
      (cell ∈ all ∧ ¬(folded seen kind cell = true ∧ cell.home ∈ done ++ [home]
          ∧ Balanced seen kind all cell.home))
        ∨ ∃ own ∈ all, folded seen kind own = true ∧ own.home ∈ done ∧ own.pan ≠ 0
          ∧ Agreed seen kind all own ∧ cell = own.atHome := by
  show cell ∈ now.cells.items.filter _ ↔ _
  rw [List.mem_filter, folding.cells, Bool.not_eq_true', ← Bool.not_eq_true, List.contains_iff_mem]
  constructor
  · rintro ⟨⟨member, free⟩ | ⟨own, member, linked, known, rest⟩, apart⟩
    · rw [address_mem_aliasesOf distinct member] at apart
      refine Or.inl ⟨member, fun ⟨linked, known, balance⟩ => ?_⟩
      rcases List.mem_append.mp known with known | last
      · exact free ⟨linked, known, balance⟩
      · exact apart ⟨linked, List.mem_singleton.mp last⟩
    · exact Or.inr ⟨own, member, linked, known, rest⟩
  · rintro (⟨member, free⟩ | ⟨own, member, linked, known, balance, agreed, rfl⟩)
    · refine ⟨Or.inl ⟨member, fun ⟨linked, known, balance⟩ =>
        free ⟨linked, List.mem_append_left _ known, balance⟩⟩, ?_⟩
      rw [address_mem_aliasesOf distinct member]
      rintro ⟨linked, homed⟩
      exact free ⟨linked, List.mem_append_right _ (List.mem_singleton.mpr homed), homed ▸ balanced⟩
    · refine ⟨Or.inr ⟨own, member, linked, known, balance, agreed, rfl⟩, fun inside => ?_⟩
      obtain ⟨other, among, same⟩ := List.mem_map.mp inside
      have homed : other.home = own.atHome.home := home_of_address same
      rw [Cell.atHome_home, (mem_aliasesOf.mp among).2.2] at homed
      exact fresh (homed ▸ known)

/-- A home that is done adds what its own crosspoints give. -/
theorem Folding.step {before : List Omitted} {done : List (ℕ × ℕ)} {now : Gathered}
    (folding : Folding seen kind all before done now) (distinct : (all.map Cell.address).Nodup)
    {home : ℕ × ℕ} (fresh : home ∉ done) :
    Folding seen kind all before (done ++ [home])
      (foldAliases kind now (aliasesOf seen kind all home)) := by
  by_cases balanced : Balanced seen kind all home
  swap
  · have same : foldAliases kind now (aliasesOf seen kind all home) = now := by
      have even := not_balanced_iff.mpr balanced
      generalize aliasesOf seen kind all home = aliases at even
      rcases aliases with _ | ⟨first, others⟩
      · rfl
      · exact if_pos even
    rw [same]
    exact folding.plain balanced
  have left := folding.left distinct fresh balanced
  rcases listed : aliasesOf seen kind all home with _ | ⟨first, others⟩
  · obtain ⟨cell, member, linked, own, -⟩ := balanced
    have known := mem_aliasesOf.mpr ⟨member, linked, own⟩
    rw [listed] at known
    cases known
  rw [listed] at left
  obtain ⟨member, linked, homed⟩ := mem_aliasesOf.mp (listed ▸ List.mem_cons_self : first ∈ _)
  have uneven : ¬ (first :: others).all (·.pan = 0) = true := by
    rw [← listed, not_balanced_iff]
    exact fun none => none balanced
  have agreed : (∀ cell ∈ others, ¬ (decide (cell.level ≠ first.level) || decide (cell.pan ≠ first.pan)) = true)
      ↔ Agreed seen kind all first := by
    constructor
    · intro same cell member linked own
      have known := mem_aliasesOf.mpr ⟨member, linked, own.trans homed⟩
      rw [listed] at known
      rcases List.mem_cons.mp known with rfl | other
      · exact ⟨rfl, rfl⟩
      · simpa using same cell other
    · intro same cell other
      obtain ⟨member, linked, own⟩ := mem_aliasesOf.mp (listed ▸ List.mem_cons_of_mem first other)
      simpa using same cell member linked (own.trans homed.symm)
  -- one crosspoint of the home speaks for the others
  have speaks : ∀ own ∈ all, folded seen kind own = true → own.home = home → Agreed seen kind all own →
      Agreed seen kind all first ∧ own.atHome = first.atHome := by
    intro own member' linked' homed' same
    have first' := same first member linked (homed.trans homed'.symm)
    refine ⟨fun cell member linked own' => ?_, ?_⟩
    · rw [first'.1, first'.2]
      exact same cell member linked (own'.trans (homed.trans homed'.symm))
    · unfold Cell.atHome
      rw [homed, homed', first'.1, first'.2]
  have last : home ∈ done ++ [home] := List.mem_append_right _ (List.mem_singleton.mpr rfl)
  unfold foldAliases
  dsimp only
  rw [if_neg uneven]
  by_cases clash : (others.any fun cell => cell.level ≠ first.level || cell.pan ≠ first.pan) = true
  · have apart : ¬ Agreed seen kind all first := by
      rw [← agreed]
      obtain ⟨cell, other, differs⟩ := List.any_eq_true.mp clash
      exact fun same => same cell other differs
    rw [if_pos clash]
    constructor
    · intro cell
      show cell ∈ (now.cells.filter _).items ↔ _
      rw [left]
      refine or_congr_right ⟨?_, ?_⟩
      · rintro ⟨own, member, linked, known, rest⟩
        exact ⟨own, member, linked, List.mem_append_left _ known, rest⟩
      · rintro ⟨own, member, linked, known, balance, same, rfl⟩
        rcases List.mem_append.mp known with known | homed'
        · exact ⟨own, member, linked, known, balance, same, rfl⟩
        · exact absurd (speaks own member linked (List.mem_singleton.mp homed') same).1 apart
    · intro item
      show item ∈ now.omitted ++ [_] ↔ _
      rw [List.mem_append, folding.omitted, List.mem_singleton, or_assoc]
      refine or_congr_right ⟨?_, ?_⟩
      · rintro (⟨own, member, linked, known, rest⟩ | rfl)
        · exact ⟨own, member, linked, List.mem_append_left _ known, rest⟩
        · exact ⟨first, member, linked, homed ▸ last, homed ▸ balanced, apart, rfl⟩
      · rintro ⟨own, member, linked, known, balance, differs, rfl⟩
        rcases List.mem_append.mp known with known | homed'
        · exact Or.inl ⟨own, member, linked, known, balance, differs, rfl⟩
        · rw [List.mem_singleton.mp homed', homed]
          exact Or.inr rfl
  · have same : Agreed seen kind all first := by
      rw [← agreed]
      exact fun cell other differs => clash (List.any_eq_true.mpr ⟨cell, other, differs⟩)
    have balance : first.pan ≠ 0 := by
      obtain ⟨cell, member, linked, own, balance⟩ := balanced
      rw [← (same cell member linked (own.trans homed.symm)).2]
      exact balance
    rw [if_neg clash]
    constructor
    · intro cell
      show cell ∈ (Keyed.put (now.cells.filter _) first.atHome).items ↔ _
      rw [Keyed.mem_put, left]
      constructor
      · rintro (rfl | ⟨free | ⟨own, member, linked, known, rest⟩, -⟩)
        · exact Or.inr ⟨first, member, linked, homed ▸ last, balance, same, rfl⟩
        · exact Or.inl free
        · exact Or.inr ⟨own, member, linked, List.mem_append_left _ known, rest⟩
      · rintro (⟨member', free⟩ | ⟨own, member', linked', known, balance', same', rfl⟩)
        · refine Or.inr ⟨Or.inl ⟨member', free⟩, fun address => free ?_⟩
          have own : cell.home = first.atHome.home := home_of_address address
          rw [Cell.atHome_home, homed] at own
          rw [own, folded_of_home seen kind (own.trans homed.symm)]
          exact ⟨linked, last, balanced⟩
        · rcases List.mem_append.mp known with known | homed'
          · refine Or.inr ⟨Or.inr ⟨own, member', linked', known, balance', same', rfl⟩, fun address => ?_⟩
            rw [Cell.atHome_address, Cell.atHome_address, homed] at address
            exact fresh (address ▸ known)
          · exact Or.inl (speaks own member' linked' (List.mem_singleton.mp homed') same').2
    · intro item
      rw [folding.omitted]
      refine or_congr_right ⟨?_, ?_⟩
      · rintro ⟨own, member, linked, known, rest⟩
        exact ⟨own, member, linked, List.mem_append_left _ known, rest⟩
      · rintro ⟨own, member', linked', known, balance', differs, rfl⟩
        rcases List.mem_append.mp known with known | homed'
        · exact ⟨own, member', linked', known, balance', differs, rfl⟩
        · refine absurd (fun cell member linked own' => ?_) differs
          have here := List.mem_singleton.mp homed'
          have own := same own member' linked' (here.trans homed.symm)
          rw [own.1, own.2]
          exact same cell member linked (own'.trans (here.trans homed.symm))

/-- The homes of a list, folded one after another. -/
theorem Folding.run {before : List Omitted} {done homes : List (ℕ × ℕ)} {now : Gathered}
    (folding : Folding seen kind all before done now) (distinct : (all.map Cell.address).Nodup)
    (fresh : (done ++ homes).Nodup) :
    Folding seen kind all before (done ++ homes)
      (homes.foldl (fun now home => foldAliases kind now (aliasesOf seen kind all home)) now) := by
  induction homes generalizing done now with
  | nil => rwa [List.append_nil]
  | cons home rest ih =>
      have apart : home ∉ done := fun known =>
        (List.nodup_append'.mp fresh).2.2 known List.mem_cons_self
      have split : done ++ home :: rest = done ++ [home] ++ rest := by simp
      rw [split] at fresh ⊢
      exact ih (folding.step distinct apart) fresh

end Folding

/-- The linked crosspoints of the readout are folded, and no other changes. -/
theorem canonical_folding (seen : Readout) (device : Option Device) (kind : Kind) :
    let gathered := mixEntries seen device kind
    Folding seen kind gathered.cells.items gathered.omitted
      ((gathered.cells.items.filter (folded seen kind)).map Cell.home).eraseDups
      (canonicalCells seen device kind) := by
  intro gathered
  have start : Folding seen kind gathered.cells.items gathered.omitted [] gathered := by
    constructor
    · intro cell
      constructor
      · exact fun member => Or.inl ⟨member, fun known => by cases known.2.1⟩
      · rintro (⟨member, -⟩ | ⟨own, -, -, known, -⟩)
        · exact member
        · cases known
    · intro item
      constructor
      · exact Or.inl
      · rintro (old | ⟨own, -, -, known, -⟩)
        · exact old
        · cases known
  exact start.run gathered.cells.distinct
    (nodup_eraseDups ((gathered.cells.items.filter (folded seen kind)).map Cell.home))

variable {seen : Readout}

theorem home_mem {all : List Cell} {cell : Cell} (member : cell ∈ all) (linked : folded seen kind cell = true) :
    cell.home ∈ ((all.filter (folded seen kind)).map Cell.home).eraseDups :=
  List.mem_eraseDups.mpr (List.mem_map_of_mem (List.mem_filter.mpr ⟨member, linked⟩))

/-- The entries of the dump. -/
def audible (seen : Readout) (device : Option Device) (kind : Kind) : List Cell :=
  (mixEntries seen device kind).cells.items

/-- The entries are the crosspoints that are reported above the mute floor. -/
theorem mem_audible {cell : Cell} : cell ∈ audible seen device kind ↔ Reported seen device kind cell := by
  unfold audible
  rw [mem_mixEntries]
  constructor
  · rintro ⟨args, known, read⟩
    obtain ⟨-, -, sound, stated⟩ := mixCell_some read
    exact ⟨sound.audible, args, known, sound.inside, stated, sound.supported, sound.balance⟩
  · rintro ⟨above, args, known, states⟩
    exact ⟨args, known, mixCell_of_states states above⟩

/-- What the routes are read from: a crosspoint of no linked pairs or without a balance as it was reported, and
a linked one with a balance at its home, where all its addresses agree. -/
theorem mem_canonical {cell : Cell} :
    cell ∈ (canonicalCells seen device kind).cells.items ↔
      (cell ∈ audible seen device kind
        ∧ ¬(folded seen kind cell = true ∧ Balanced seen kind (audible seen device kind) cell.home))
        ∨ ∃ own ∈ audible seen device kind, folded seen kind own = true ∧ own.pan ≠ 0
          ∧ Agreed seen kind (audible seen device kind) own ∧ cell = own.atHome := by
  rw [(canonical_folding seen device kind).cells]
  refine or_congr (Iff.intro ?_ ?_) (Iff.intro ?_ ?_)
  · exact fun ⟨member, free⟩ => ⟨member, fun ⟨linked, balanced⟩ =>
      free ⟨linked, home_mem member linked, balanced⟩⟩
  · exact fun ⟨member, free⟩ => ⟨member, fun ⟨linked, _, balanced⟩ => free ⟨linked, balanced⟩⟩
  · exact fun ⟨own, member, linked, _, rest⟩ => ⟨own, member, linked, rest⟩
  · exact fun ⟨own, member, linked, rest⟩ => ⟨own, member, linked, home_mem member linked, rest⟩

/-- A linked crosspoint whose addresses disagree is named. -/
theorem contradictory_omitted {own : Cell} (member : own ∈ audible seen device kind)
    (linked : folded seen kind own = true)
    (balanced : Balanced seen kind (audible seen device kind) own.home)
    (differs : ¬ Agreed seen kind (audible seen device kind) own) :
    ⟨.mix own.home.1 kind own.home.2, .contradictory⟩ ∈ (canonicalCells seen device kind).omitted :=
  ((canonical_folding seen device kind).omitted _).mpr
    (Or.inr ⟨own, member, linked, home_mem member linked, balanced, differs, rfl⟩)

/-- What is refused of some reports is named. -/
theorem foldl_omitted {reports : List (Path × Args)} {held : Gathered} {item : Omitted}
    (named : item ∈ held.omitted ∨ ∃ output source args reason, (.mix output kind source, args) ∈ reports
      ∧ mixCell device kind output source args = .error reason ∧ item = ⟨.mix output kind source, reason⟩) :
    item ∈ (reports.foldl (Gathered.take device kind) held).omitted := by
  induction reports generalizing held with
  | nil => exact named.resolve_right fun ⟨_, _, _, _, member, _⟩ => List.not_mem_nil member
  | cons report rest ih =>
      refine ih ?_
      rcases named with old | ⟨output, source, args, reason, member, refused, rfl⟩
      · refine Or.inl ?_
        unfold Gathered.take
        split
        · split_ifs
          · split
            · exact old
            · exact old
            · exact List.mem_append_left _ old
          · exact old
        · exact old
      · rcases List.mem_cons.mp member with rfl | later
        · refine Or.inl ?_
          unfold Gathered.take
          dsimp only
          rw [if_pos rfl, refused]
          exact List.mem_append_right _ (List.mem_singleton_self _)
        · exact Or.inr ⟨output, source, args, reason, later, refused, rfl⟩

/-- A report that is neither silence nor states a crosspoint is named. -/
theorem refused_omitted {output source : ℕ} {args : Args}
    (known : seen.args (.mix output kind source) = some args) (loud : ¬ Silent args) :
    (∃ cell, cell.address = (output, source) ∧ Reported seen device kind cell)
      ∨ ∃ reason, ⟨.mix output kind source, reason⟩ ∈ (canonicalCells seen device kind).omitted := by
  rcases mixCell_cases device kind output source args
    with ⟨-, silent⟩ | ⟨cell, -, address, above, states⟩ | ⟨reason, refused⟩
  · exact absurd silent loud
  · obtain ⟨rfl, rfl⟩ := Prod.mk.inj address
    exact Or.inl ⟨cell, rfl, above, args, known, states⟩
  · refine Or.inr ⟨reason, ((canonical_folding seen device kind).omitted _).mpr (Or.inl ?_)⟩
    unfold Readout.args at known
    obtain ⟨report, member, rfl⟩ := Option.map_eq_some_iff.mp known
    obtain ⟨member, path⟩ := (Keyed.get?_eq_some _ _ _).mp member
    exact foldl_omitted (Or.inr ⟨output, source, report.2, reason, path ▸ member, refused, rfl⟩)

/-! ### The routes -/

/-- The route a crosspoint implies, by its shape. -/
inductive Reads (seen : Readout) (device : Option Device) (kind : Kind) (cells : Keyed Cell.address)
    (cell : Cell) : Route → List (ℕ × ℕ) → Prop
  /-- One register of a linked output and a linked source. -/
  | pair (out : linked seen .output cell.output = some true)
      (source : linked seen kind.family cell.source = some true)
      (corner : isCorner device kind cell = true) (level : cell.level ≤ levelMax)
      (stays : cell.pan ≠ 0 → levelMin < round1 cell.level) :
      Reads seen device kind cells cell (linkedRoute kind cell) [cell.address]
  /-- The two halves of an unlinked output pair. -/
  | split (out : linked seen .output cell.output = some false)
      (source : linked seen kind.family cell.source = some true)
      (corner : isCorner device kind cell = true) (left : cell.pan = -100)
      (half : hasOtherHalf cells cell = true) (stays : levelMin < round1 cell.level)
      (audible : levelMin < splitLevel cell.level) (level : splitLevel cell.level ≤ 0) :
      Reads seen device kind cells cell (splitRoute kind cell)
        [cell.address, (cell.output + 1, cell.source)]
  /-- One channel to another. -/
  | mono (out : linked seen .output cell.output = some false)
      (source : linked seen kind.family cell.source = some false) (even : cell.pan = 0)
      (level : cell.level ≤ levelMax) :
      Reads seen device kind cells cell (monoRoute kind cell) [cell.address]

variable {cells : Keyed Cell.address} {cell : Cell}

theorem cellRoute_iff {route : Route} {addresses : List (ℕ × ℕ)} :
    cellRoute seen device kind cells cell = .ok (route, addresses)
      ↔ Reads seen device kind cells cell route addresses := by
  constructor
  · intro made
    unfold cellRoute at made
    split_ifs at made with silent
    have stays : cell.pan ≠ 0 → levelMin < round1 cell.level := fun balance =>
      not_le.mp fun low => silent ⟨balance, low⟩
    split at made
    · next outLinked inLinked out source =>
        split_ifs at made with linkedPair halves single
        · simp only [Bool.and_eq_true, decide_eq_true_eq] at linkedPair
          obtain ⟨⟨⟨corner, rfl⟩, rfl⟩, level⟩ := linkedPair
          obtain ⟨rfl, rfl⟩ := Prod.mk.inj (Except.ok.inj made)
          exact .pair out source corner level stays
        · simp only [Bool.and_eq_true, Bool.not_eq_true', decide_eq_true_eq] at halves
          obtain ⟨⟨⟨⟨⟨⟨corner, rfl⟩, rfl⟩, left⟩, half⟩, audible⟩, level⟩ := halves
          obtain ⟨rfl, rfl⟩ := Prod.mk.inj (Except.ok.inj made)
          exact .split out source corner left half (stays (by rw [left]; decide)) audible level
        · simp only [Bool.and_eq_true, Bool.not_eq_true', decide_eq_true_eq] at single
          obtain ⟨⟨⟨even, rfl⟩, rfl⟩, level⟩ := single
          obtain ⟨rfl, rfl⟩ := Prod.mk.inj (Except.ok.inj made)
          exact .mono out source even level
    · cases made
  · intro reads
    unfold cellRoute
    cases reads with
    | pair out source corner level stays =>
        rw [if_neg fun silent => absurd (stays silent.1) (not_lt.mpr silent.2), out, source]
        dsimp only
        rw [if_pos (by simp [corner, level])]
    | split out source corner left half stays audible level =>
        rw [if_neg fun silent => absurd stays (not_lt.mpr silent.2), out, source]
        dsimp only
        rw [if_neg (by simp), if_pos (by simp [corner, left, half, audible, level])]
    | mono out source even level =>
        rw [if_neg fun silent => silent.1 even, out, source]
        dsimp only
        rw [if_neg (by simp), if_neg (by simp), if_pos (by simp [even, level])]

/-- The crosspoints a route accounts for are those it writes. -/
theorem Reads.paths {route : Route} {addresses : List (ℕ × ℕ)}
    (reads : Reads seen device kind cells cell route addresses) :
    (cellMessages route).map (·.path) = addresses.map fun address => .mix address.1 kind address.2 := by
  cases reads <;> rfl

instance : Std.Total Cell.before where
  total first second := by
    unfold Cell.before
    omega

instance : IsTrans Cell Cell.before where
  trans first second third := by
    unfold Cell.before
    omega

/-- The route a crosspoint implies, if any. -/
def routeOf (seen : Readout) (device : Option Device) (kind : Kind) (cells : Keyed Cell.address)
    (cell : Cell) : Option Route :=
  (cellRoute seen device kind cells cell).toOption.map Prod.fst

theorem routeOf_eq_some {route : Route} : routeOf seen device kind cells cell = some route
    ↔ ∃ addresses, Reads seen device kind cells cell route addresses := by
  unfold routeOf
  rw [Option.map_eq_some_iff]
  constructor
  · rintro ⟨⟨made, addresses⟩, found, rfl⟩
    rcases read : cellRoute seen device kind cells cell with problem | result
    · rw [read] at found
      cases found
    · rw [read] at found
      obtain rfl := Option.some.inj found
      exact ⟨addresses, cellRoute_iff.mp read⟩
  · rintro ⟨addresses, reads⟩
    exact ⟨(route, addresses), by rw [cellRoute_iff.mpr reads]; rfl, rfl⟩

theorem isCorner_odd (corner : isCorner device kind cell = true) :
    cell.output % 2 = 1 ∧ cell.source % 2 = 1 := by
  unfold isCorner at corner
  rw [Option.any_eq_true] at corner
  obtain ⟨known, -, corner⟩ := corner
  simp only [Bool.and_eq_true, decide_eq_true_eq] at corner
  exact corner.1.1

/-- The other half of an unlinked pair implies no route of its own. -/
theorem routeOf_half (even : cell.output % 2 = 0) (right : cell.pan = 100) :
    routeOf seen device kind cells cell = none := by
  have corner : ¬ isCorner device kind cell = true := fun odd => by
    have := (isCorner_odd odd).1
    omega
  rcases found : routeOf seen device kind cells cell with _ | route
  · rfl
  · obtain ⟨addresses, reads⟩ := routeOf_eq_some.mp found
    cases reads with
    | pair _ _ odd => exact absurd odd corner
    | split _ _ odd => exact absurd odd corner
    | mono _ _ flat =>
        rw [right] at flat
        cases flat

/-- What the routes found so far account for. -/
structure Progress (seen : Readout) (device : Option Device) (kind : Kind) (cells : Keyed Cell.address)
    (done : List Cell) (found : Recovery) : Prop where
  routes : found.routes = done.filterMap (routeOf seen device kind cells)
  claimed : (found.routes.flatMap cellMessages).map (·.path)
    = found.claimed.map fun address => .mix address.1 kind address.2
  distinct : found.claimed.Nodup
  accounted : ∀ cell ∈ done, cell.address ∈ found.claimed
    ∨ ∃ reason, ⟨.mix cell.output kind cell.source, reason⟩ ∈ found.omitted
  behind : ∀ address ∈ found.claimed, (∃ cell ∈ done, cell.address = address)
    ∨ address.1 % 2 = 0 ∧ (∃ cell ∈ done, cell.address = (address.1 - 1, address.2))
      ∧ ∃ half, cells.get? address = some half ∧ half.pan = 100

theorem hasOtherHalf_iff : hasOtherHalf cells cell = true
    ↔ ∃ other, cells.get? (cell.output + 1, cell.source) = some other ∧ other.pan = 100
      ∧ |round64 (other.level - cell.level)| < literal 1 4 := by
  unfold hasOtherHalf
  rw [Option.any_eq_true]
  refine exists_congr fun other => and_congr_right fun _ => ?_
  rw [Bool.and_eq_true, decide_eq_true_eq, decide_eq_true_eq]

namespace Progress

variable {done : List Cell} {found : Recovery}

/-- What is claimed stays behind the crosspoints that are done. -/
theorem behind_append (progress : Progress seen device kind cells done found) (cell : Cell) :
    ∀ address ∈ found.claimed, (∃ other ∈ done ++ [cell], other.address = address)
      ∨ address.1 % 2 = 0 ∧ (∃ other ∈ done ++ [cell], other.address = (address.1 - 1, address.2))
        ∧ ∃ half, cells.get? address = some half ∧ half.pan = 100 := by
  intro address claimed
  rcases progress.behind address claimed with ⟨other, member, own⟩ | ⟨even, ⟨other, member, own⟩, half⟩
  · exact Or.inl ⟨other, List.mem_append_left _ member, own⟩
  · exact Or.inr ⟨even, ⟨other, List.mem_append_left _ member, own⟩, half⟩

/-- One more crosspoint. -/
theorem step (progress : Progress seen device kind cells done found) (held : cell ∈ cells.items)
    (fresh : cell.address ∉ done.map Cell.address) (sorted : ∀ other ∈ done, other.before cell) :
    Progress seen device kind cells (done ++ [cell]) (found.take seen device kind cells cell) := by
  have known : cells.get? cell.address = some cell := (Keyed.get?_eq_some _ _ _).mpr ⟨held, rfl⟩
  unfold Recovery.take
  by_cases claimed : cell.address ∈ found.claimed
  · have half : routeOf seen device kind cells cell = none := by
      rcases progress.behind _ claimed with ⟨other, member, own⟩ | ⟨even, -, half, get, right⟩
      · exact absurd (List.mem_map.mpr ⟨other, member, own⟩) fresh
      · obtain rfl := Option.some.inj (known.symm.trans get)
        exact routeOf_half even right
    rw [if_pos (List.contains_iff_mem.mpr claimed)]
    refine ⟨?_, progress.claimed, progress.distinct, ?_, progress.behind_append cell⟩
    · rw [List.filterMap_append, ← progress.routes, List.filterMap_cons_none half, List.filterMap_nil,
        List.append_nil]
    · intro other member
      rcases List.mem_append.mp member with member | last
      · exact progress.accounted other member
      · exact Or.inl (List.mem_singleton.mp last ▸ claimed)
  · rw [if_neg fun own => claimed (List.contains_iff_mem.mp own)]
    rcases made : cellRoute seen device kind cells cell with reason | ⟨route, addresses⟩
    · have empty : routeOf seen device kind cells cell = none := by
        unfold routeOf
        rw [made]
        rfl
      refine ⟨?_, progress.claimed, progress.distinct, ?_, progress.behind_append cell⟩
      · show found.routes = _
        rw [List.filterMap_append, ← progress.routes, List.filterMap_cons_none empty, List.filterMap_nil,
          List.append_nil]
      · intro other member
        rcases List.mem_append.mp member with member | last
        · rcases progress.accounted other member with own | ⟨reason, own⟩
          · exact Or.inl own
          · exact Or.inr ⟨reason, List.mem_append_left _ own⟩
        · rw [List.mem_singleton.mp last]
          exact Or.inr ⟨reason, List.mem_append_right _ List.mem_cons_self⟩
    · have reads := cellRoute_iff.mp made
      have gives : routeOf seen device kind cells cell = some route := routeOf_eq_some.mpr ⟨addresses, reads⟩
      have here : cell ∈ done ++ [cell] := List.mem_append_right _ List.mem_cons_self
      have shape : (addresses = [cell.address]) ∨ (addresses = [cell.address, (cell.output + 1, cell.source)]
          ∧ cell.output % 2 = 1 ∧ ∃ half, cells.get? (cell.output + 1, cell.source) = some half
            ∧ half.pan = 100) := by
        cases reads with
        | pair => exact Or.inl rfl
        | mono => exact Or.inl rfl
        | split _ _ corner _ half =>
            obtain ⟨other, get, right, -⟩ := hasOtherHalf_iff.mp half
            exact Or.inr ⟨rfl, (isCorner_odd corner).1, other, get, right⟩
      refine ⟨?_, ?_, ?_, ?_, ?_⟩
      · show found.routes ++ [route] = _
        rw [List.filterMap_append, ← progress.routes, List.filterMap_cons_some gives, List.filterMap_nil]
      · show ((found.routes ++ [route]).flatMap cellMessages).map _ = (found.claimed ++ addresses).map _
        rw [List.flatMap_append, List.map_append, List.map_append, progress.claimed, List.flatMap_singleton,
          reads.paths]
      · show (found.claimed ++ addresses).Nodup
        rcases shape with rfl | ⟨rfl, odd, half⟩
        · exact progress.distinct.append (List.nodup_singleton _) (by simpa using claimed)
        · have other : (cell.output + 1, cell.source) ∉ found.claimed := by
            intro own
            rcases progress.behind _ own with ⟨later, member, address⟩ | ⟨-, ⟨again, member, address⟩, -⟩
            · have order := sorted later member
              obtain ⟨out, source⟩ := Prod.mk.inj address
              unfold Cell.before at order
              omega
            · exact fresh (List.mem_map.mpr ⟨again, member, address⟩)
          refine progress.distinct.append (by simp [Cell.address]) ?_
          rw [List.disjoint_cons_right]
          exact ⟨claimed, by simpa using other⟩
      · intro other member
        show other.address ∈ found.claimed ++ addresses ∨ _
        rcases List.mem_append.mp member with member | last
        · rcases progress.accounted other member with own | own
          · exact Or.inl (List.mem_append_left _ own)
          · exact Or.inr own
        · rw [List.mem_singleton.mp last]
          refine Or.inl (List.mem_append_right _ ?_)
          rcases shape with rfl | ⟨rfl, -⟩ <;> exact List.mem_cons_self
      · intro address member
        rcases List.mem_append.mp member with old | new
        · exact progress.behind_append cell address old
        · rcases shape with rfl | ⟨rfl, odd, half⟩
          · exact Or.inl ⟨cell, here, (List.mem_singleton.mp new).symm⟩
          · rcases List.mem_cons.mp new with rfl | new
            · exact Or.inl ⟨cell, here, rfl⟩
            · rw [List.mem_singleton.mp new]
              exact Or.inr ⟨by omega, ⟨cell, here, rfl⟩, half⟩

/-- The crosspoints in their order, one after another. -/
theorem run {todo : List Cell} (progress : Progress seen device kind cells done found)
    (held : ∀ cell ∈ todo, cell ∈ cells.items) (fresh : ((done ++ todo).map Cell.address).Nodup)
    (sorted : (done ++ todo).Pairwise Cell.before) :
    Progress seen device kind cells (done ++ todo)
      (todo.foldl (Recovery.take seen device kind cells) found) := by
  induction todo generalizing done found with
  | nil => rwa [List.append_nil]
  | cons cell rest ih =>
      have split : done ++ cell :: rest = done ++ [cell] ++ rest := by simp
      have apart : cell.address ∉ done.map Cell.address := by
        rw [List.map_append, List.nodup_append'] at fresh
        exact fun known => fresh.2.2 known List.mem_cons_self
      have behind : ∀ other ∈ done, other.before cell := fun other member =>
        (List.pairwise_append.mp sorted).2.2 other member cell List.mem_cons_self
      rw [split] at fresh sorted ⊢
      exact ih (progress.step (held cell List.mem_cons_self) apart behind)
        (fun other member => held other (List.mem_cons_of_mem _ member)) fresh sorted

end Progress

/-- The crosspoints the routes are read from, in their order. -/
def orderedCells (seen : Readout) (device : Option Device) (kind : Kind) : List Cell :=
  (canonicalCells seen device kind).cells.items.insertionSort Cell.before

theorem mem_orderedCells {cell : Cell} :
    cell ∈ orderedCells seen device kind ↔ cell ∈ (canonicalCells seen device kind).cells.items :=
  List.mem_insertionSort Cell.before

theorem orderedCells_distinct (seen : Readout) (device : Option Device) (kind : Kind) :
    ((orderedCells seen device kind).map Cell.address).Nodup :=
  (((List.perm_insertionSort Cell.before _).map Cell.address).nodup_iff).mpr
    (canonicalCells seen device kind).cells.distinct

/-- The recovery behind all the crosspoints. -/
def recovery (seen : Readout) (device : Option Device) (kind : Kind) : Recovery :=
  (orderedCells seen device kind).foldl
    (Recovery.take seen device kind (canonicalCells seen device kind).cells) {}

theorem recovery_progress (seen : Readout) (device : Option Device) (kind : Kind) :
    Progress seen device kind (canonicalCells seen device kind).cells (orderedCells seen device kind)
      (recovery seen device kind) := by
  have start : Progress seen device kind (canonicalCells seen device kind).cells [] {} :=
    ⟨rfl, rfl, List.nodup_nil, fun _ member => (List.not_mem_nil member).elim,
      fun _ member => (List.not_mem_nil member).elim⟩
  exact start.run (fun cell member => mem_orderedCells.mp member) (orderedCells_distinct seen device kind)
    (List.pairwise_insertionSort Cell.before _)

/-- The routes are those of the crosspoints, in their order. -/
theorem routesFromObserved_eq (seen : Readout) (device : Option Device) (kind : Kind) :
    (routesFromObserved seen device kind).1 = (orderedCells seen device kind).filterMap
      (routeOf seen device kind (canonicalCells seen device kind).cells) :=
  (recovery_progress seen device kind).routes

/-- A route comes of a crosspoint that implies it. -/
theorem mem_routesFromObserved {route : Route} :
    route ∈ (routesFromObserved seen device kind).1 ↔
      ∃ cell ∈ (canonicalCells seen device kind).cells.items, ∃ addresses,
        Reads seen device kind (canonicalCells seen device kind).cells cell route addresses := by
  rw [routesFromObserved_eq, List.mem_filterMap]
  refine exists_congr fun cell => ?_
  rw [mem_orderedCells, routeOf_eq_some]

/-- The crosspoints the routes set are those they were read from. -/
theorem paths_routesFromObserved (seen : Readout) (device : Option Device) (kind : Kind) :
    ((routesFromObserved seen device kind).1.flatMap cellMessages).map (·.path)
      = (recovery seen device kind).claimed.map fun address => .mix address.1 kind address.2 :=
  (recovery_progress seen device kind).claimed

/-- No two routes set the same crosspoint. -/
theorem routesFromObserved_once (seen : Readout) (device : Option Device) (kind : Kind) :
    (((routesFromObserved seen device kind).1.flatMap cellMessages).map (·.path)).Nodup := by
  rw [paths_routesFromObserved]
  refine (recovery_progress seen device kind).distinct.map fun first second same => ?_
  injection same with out _ source
  exact Prod.ext out source

/-! ### What becomes of every crosspoint -/

/-- A message that sets a crosspoint to what was reported of it: its balance, and its level to a twentieth of a
decibel. -/
def Restores (kind : Kind) (cell : Cell) (address : ℕ × ℕ) (message : Message) : Prop :=
  ∃ level, message = mixMessage address.1 kind address.2 level cell.pan
    ∧ |level - cell.level| ≤ 51 / 1000

/-- What the routes of a dump and its warnings say of the crosspoints reported. -/
structure Accounts (seen : Readout) (device : Option Device) (kind : Kind) (routes : List Route)
    (omitted : List Omitted) : Prop where
  /-- Nothing is lost: what is reported above the mute floor is set by a route, or named. -/
  kept : ∀ cell, Reported seen device kind cell →
    (∃ message ∈ routes.flatMap cellMessages, Restores kind cell cell.address message
        ∨ folded seen kind cell = true ∧ Restores kind cell cell.home message)
      ∨ (∃ reason, ⟨.mix cell.output kind cell.source, reason⟩ ∈ omitted)
      ∨ folded seen kind cell = true ∧ ∃ reason, ⟨.mix cell.home.1 kind cell.home.2, reason⟩ ∈ omitted
  /-- Nothing is passed over: a report that is no silence states a crosspoint above the mute floor, or is
  named. -/
  refused : ∀ output source args, seen.args (.mix output kind source) = some args → ¬ Silent args →
    (∃ cell, cell.address = (output, source) ∧ Reported seen device kind cell)
      ∨ ∃ reason, ⟨.mix output kind source, reason⟩ ∈ omitted
  /-- Nothing is doubled: no crosspoint is set twice. -/
  once : ((routes.flatMap cellMessages).map (·.path)).Nodup
  /-- Nothing is invented: what a route sets was reported so. -/
  reported : ∀ message ∈ routes.flatMap cellMessages, ∃ cell, Reported seen device kind cell ∧
    (Restores kind cell cell.address message
      ∨ folded seen kind cell = true ∧ Restores kind cell cell.home message)
  /-- No link changes: what a route states of a pair was reported so. -/
  links : ∀ route ∈ routes, ∀ requirement ∈ route.linkRequirements,
    linked seen requirement.family requirement.channel = some requirement.linked

theorem audible_sound (member : cell ∈ audible seen device kind) : Sound device kind cell := by
  obtain ⟨above, args, -, states⟩ := mem_audible.mp member
  exact ⟨states.inside, above, states.supported, states.balance⟩

/-- A crosspoint the routes are read from was reported, at its address or at one it shares a register with. -/
theorem canonical_origin (member : cell ∈ (canonicalCells seen device kind).cells.items) :
    ∃ own ∈ audible seen device kind, own.level = cell.level ∧ own.pan = cell.pan
      ∧ (own = cell ∨ folded seen kind own = true ∧ cell.address = own.home) := by
  rcases mem_canonical.mp member with ⟨reported, -⟩ | ⟨own, reported, linked, -, -, rfl⟩
  · exact ⟨cell, reported, rfl, rfl, Or.inl rfl⟩
  · exact ⟨own, reported, rfl, rfl, Or.inr ⟨linked, rfl⟩⟩

theorem Sound.size (sound : Sound device kind cell) : -65 ≤ cell.level ∧ cell.level ≤ 7 := by
  have top : loudest ≤ 7 := by decide +kernel
  exact ⟨sound.audible.le, sound.supported.trans top⟩

/-- What a route writes restores the crosspoints it was read from. -/
theorem Reads.restores {route : Route} {addresses : List (ℕ × ℕ)}
    (reads : Reads seen device kind cells cell route addresses) (held : cell ∈ cells.items)
    (sizes : ∀ other ∈ cells.items, -65 ≤ other.level ∧ other.level ≤ 7) :
    ∀ message ∈ cellMessages route, ∃ own ∈ cells.items, Restores kind own own.address message := by
  have size := sizes cell held
  have narrow : |cell.level| ≤ 90 := abs_le.mpr ⟨by linarith, by linarith⟩
  have wide : |cell.level| ≤ 100 := narrow.trans (by norm_num)
  have tight : 1 / 20 + slack ≤ 51 / 1000 := by
    unfold slack
    norm_num
  intro message member
  cases reads with
  | pair =>
      obtain rfl := List.mem_singleton.mp member
      exact ⟨cell, held, round1 cell.level, rfl, (round1_near wide).trans tight⟩
  | mono out source even level =>
      obtain rfl := List.mem_singleton.mp member
      exact ⟨cell, held, round1 cell.level, by rw [even]; rfl, (round1_near wide).trans tight⟩
  | split out source corner left half stays audible level =>
      have near := abs_le.mp (unlinkedLevel_splitLevel narrow audible level)
      unfold slack at near
      rcases List.mem_cons.mp member with rfl | member
      · refine ⟨cell, held, unlinkedLevel (splitLevel cell.level), by rw [left]; rfl, ?_⟩
        rw [abs_le]
        constructor <;> linarith
      · obtain rfl := List.mem_singleton.mp member
        obtain ⟨other, get, right, alike⟩ := hasOtherHalf_iff.mp half
        obtain ⟨member, address⟩ := (Keyed.get?_eq_some _ _ _).mp get
        have far := sizes other member
        have close : |other.level - cell.level| ≤ 128 := by
          rw [abs_le]
          constructor <;> linarith
        have close := abs_le.mp (halves_near close alike)
        refine ⟨other, member, unlinkedLevel (splitLevel cell.level), by rw [right, address]; rfl, ?_⟩
        rw [abs_le]
        constructor <;> linarith

@[simp] theorem linked_anchor (seen : Readout) (family : Family) (channel : ℕ) :
    linked seen family (anchor channel) = linked seen family channel := by
  have same : pairLeft (anchor channel) = pairLeft channel := by
    unfold anchor pairLeft
    split <;> omega
  unfold linked
  rw [same]

/-- What a route states of its pairs was reported so. -/
theorem Reads.links {route : Route} {addresses : List (ℕ × ℕ)}
    (reads : Reads seen device kind cells cell route addresses) :
    ∀ requirement ∈ route.linkRequirements,
      linked seen requirement.family requirement.channel = some requirement.linked := by
  intro requirement member
  unfold Route.linkRequirements at member
  rcases List.mem_cons.mp member with rfl | member
  · cases reads with
    | pair out source => exact (linked_anchor _ _ _).trans source
    | split out source => exact (linked_anchor _ _ _).trans source
    | mono out source => exact (linked_anchor _ _ _).trans source
  · obtain rfl := List.mem_singleton.mp member
    cases reads with
    | pair out => exact (linked_anchor _ _ _).trans out
    | split out => exact (linked_anchor _ _ _).trans out
    | mono out => exact (linked_anchor _ _ _).trans out

theorem canonical_size (member : cell ∈ (canonicalCells seen device kind).cells.items) :
    -65 ≤ cell.level ∧ cell.level ≤ 7 := by
  obtain ⟨own, reported, level, -⟩ := canonical_origin member
  rw [← level]
  exact (audible_sound reported).size

/-- Every crosspoint that is reported above the mute floor is set by the dump as it was reported or named as
omitted, and so is named what is reported and is neither such a crosspoint nor silence; none is set twice, none
is set that was not reported, and no link is stated otherwise than reported. -/
theorem routesFromObserved_accounts (seen : Readout) (device : Option Device) (kind : Kind) :
    Accounts seen device kind (routesFromObserved seen device kind).1
      (routesFromObserved seen device kind).2 := by
  have progress := recovery_progress seen device kind
  have restores : ∀ message ∈ (routesFromObserved seen device kind).1.flatMap cellMessages,
      ∃ own ∈ (canonicalCells seen device kind).cells.items, Restores kind own own.address message := by
    intro message member
    obtain ⟨route, made, member⟩ := List.mem_flatMap.mp member
    obtain ⟨cell, held, addresses, reads⟩ := mem_routesFromObserved.mp made
    exact reads.restores held (fun other => canonical_size) message member
  -- a crosspoint the routes are read from is set by one of them, or named
  have kept : ∀ cell ∈ (canonicalCells seen device kind).cells.items,
      (∃ message ∈ (routesFromObserved seen device kind).1.flatMap cellMessages,
          Restores kind cell cell.address message)
        ∨ ∃ reason, ⟨.mix cell.output kind cell.source, reason⟩ ∈ (routesFromObserved seen device kind).2 := by
    intro cell held
    rcases progress.accounted cell (mem_orderedCells.mpr held) with claimed | ⟨reason, named⟩
    · refine Or.inl ?_
      have path : Path.mix cell.output kind cell.source
          ∈ ((routesFromObserved seen device kind).1.flatMap cellMessages).map (·.path) := by
        rw [paths_routesFromObserved]
        exact List.mem_map.mpr ⟨cell.address, claimed, rfl⟩
      obtain ⟨message, member, path⟩ := List.mem_map.mp path
      obtain ⟨own, held', level, rfl, near⟩ := restores message member
      have same : own.address = cell.address := by
        have paths : Path.mix own.output kind own.source = .mix cell.output kind cell.source := path
        injection paths with out _ source
        exact Prod.ext out source
      obtain rfl := List.inj_on_of_nodup_map (canonicalCells seen device kind).cells.distinct held' held same
      exact ⟨_, member, level, rfl, near⟩
    · exact Or.inr ⟨reason, List.mem_append_right _ named⟩
  constructor
  · intro cell sounds
    have reported := mem_audible.mpr sounds
    by_cases moved : folded seen kind cell = true ∧ Balanced seen kind (audible seen device kind) cell.home
    · obtain ⟨linked, balanced⟩ := moved
      by_cases agreed : Agreed seen kind (audible seen device kind) cell
      · have balance : cell.pan ≠ 0 := by
          obtain ⟨other, member, linked', homed, balance⟩ := balanced
          rw [← (agreed other member linked' homed).2]
          exact balance
        have held : cell.atHome ∈ (canonicalCells seen device kind).cells.items :=
          mem_canonical.mpr (Or.inr ⟨cell, reported, linked, balance, agreed, rfl⟩)
        rcases kept cell.atHome held with ⟨message, member, restored⟩ | ⟨reason, named⟩
        · exact Or.inl ⟨message, member, Or.inr ⟨linked, restored⟩⟩
        · exact Or.inr (Or.inr ⟨linked, reason, named⟩)
      · exact Or.inr (Or.inr ⟨linked, .contradictory,
          List.mem_append_left _ (contradictory_omitted reported linked balanced agreed)⟩)
    · have held : cell ∈ (canonicalCells seen device kind).cells.items :=
        mem_canonical.mpr (Or.inl ⟨reported, moved⟩)
      rcases kept cell held with ⟨message, member, restored⟩ | named
      · exact Or.inl ⟨message, member, Or.inl restored⟩
      · exact Or.inr (Or.inl named)
  · intro output source args known loud
    exact (refused_omitted known loud).imp_right fun ⟨reason, named⟩ => ⟨reason, List.mem_append_left _ named⟩
  · exact routesFromObserved_once seen device kind
  · intro message member
    obtain ⟨own, held, level, rfl, near⟩ := restores message member
    obtain ⟨cell, reported, same, pan, rfl | ⟨linked, homed⟩⟩ := canonical_origin held
    · exact ⟨cell, mem_audible.mp reported, Or.inl ⟨level, rfl, near⟩⟩
    · refine ⟨cell, mem_audible.mp reported, Or.inr ⟨linked, level, ?_, same ▸ near⟩⟩
      rw [← homed, pan]
  · intro route made requirement member
    obtain ⟨cell, -, addresses, reads⟩ := mem_routesFromObserved.mp made
    exact reads.links requirement member

/-! ### The settings -/

section Settings

variable {α : Type} {seen : Readout} {registers : List (Path × Register)} {setting : Path → Value → Option α}

/-- A setting is made of every report that has a value. -/
theorem mem_readSettings {made : α} : made ∈ (readSettings seen registers setting).1 ↔
    ∃ row ∈ registers, ∃ args value, seen.args row.1 = some args ∧ configValue row.2 args = .ok value
      ∧ setting row.1 value = some made := by
  unfold readSettings
  simp only [List.mem_filterMap, Option.map_eq_some_iff, Option.bind_eq_some_iff]
  constructor
  · rintro ⟨-, ⟨row, member, args, reported, rfl⟩, value, read, same⟩
    refine ⟨row, member, args, value, reported, ?_, same⟩
    dsimp only at read
    cases read' : configValue row.2 args with
    | ok other =>
        rw [read'] at read
        rw [Option.some.inj read]
    | error reason =>
        rw [read'] at read
        cases read
  · rintro ⟨row, member, args, value, reported, read, same⟩
    refine ⟨_, ⟨row, member, args, reported, rfl⟩, value, ?_, same⟩
    dsimp only
    rw [read]
    rfl

/-- And every other report of these registers is named. -/
theorem omitted_readSettings {item : Omitted} : item ∈ (readSettings seen registers setting).2 ↔
    ∃ row ∈ registers, ∃ args reason, seen.args row.1 = some args ∧ configValue row.2 args = .error reason
      ∧ item = ⟨row.1, reason⟩ := by
  unfold readSettings
  simp only [List.mem_filterMap, Option.map_eq_some_iff]
  constructor
  · rintro ⟨-, ⟨row, member, args, reported, rfl⟩, named⟩
    cases read : configValue row.2 args with
    | ok value =>
        dsimp only at named
        rw [read] at named
        cases named
    | error reason =>
        dsimp only at named
        rw [read] at named
        exact ⟨row, member, args, reason, reported, read, (Option.some.inj named).symm⟩
  · rintro ⟨row, member, args, reason, reported, read, rfl⟩
    refine ⟨_, ⟨row, member, args, reported, rfl⟩, ?_⟩
    dsimp only
    rw [read]
    rfl

/-- A report of one of these registers is a setting of its value, where there is one for it, or is named. -/
theorem readSettings_accounts {row : Path × Register} (member : row ∈ registers) {args : Args}
    (reported : seen.args row.1 = some args) :
    (∃ value, configValue row.2 args = .ok value
        ∧ ∀ made, setting row.1 value = some made → made ∈ (readSettings seen registers setting).1)
      ∨ ∃ reason, ⟨row.1, reason⟩ ∈ (readSettings seen registers setting).2 := by
  cases read : configValue row.2 args with
  | ok value =>
      exact Or.inl ⟨value, rfl, fun made same => mem_readSettings.mpr ⟨row, member, args, value, reported, read, same⟩⟩
  | error reason =>
      exact Or.inr ⟨reason, omitted_readSettings.mpr ⟨row, member, args, reason, reported, read, rfl⟩⟩

end Settings

/-- Every reported register that a channel section may set is a setting of its value or is named, and nothing
else is set. -/
theorem channelsFromObserved_accounts (seen : Readout) (device : Device) :
    (∀ made ∈ (channelsFromObserved seen (some device)).1, ∃ row ∈ channelRows device made.family,
        (made.channel, made.option) ∈ rowRegisters device row.2
          ∧ ∃ args, seen.args (.channel made.family made.channel made.option) = some args
            ∧ configValue row.2 args = .ok made.value)
      ∧ ∀ family ∈ [Family.input, Family.output], ∀ row ∈ channelRows device family,
        ∀ register ∈ rowRegisters device row.2, ∀ args,
          seen.args (.channel family register.1 register.2) = some args →
            (∃ value, configValue row.2 args = .ok value
              ∧ ⟨family, register.1, register.2, value⟩ ∈ (channelsFromObserved seen (some device)).1)
            ∨ ∃ reason, ⟨.channel family register.1 register.2, reason⟩
              ∈ (channelsFromObserved seen (some device)).2 := by
  constructor
  · intro made member
    obtain ⟨item, listed, args, value, reported, read, same⟩ := mem_readSettings.mp member
    obtain ⟨family, -, listed⟩ := List.mem_flatMap.mp listed
    obtain ⟨row, known, listed⟩ := List.mem_flatMap.mp listed
    obtain ⟨register, inside, rfl⟩ := List.mem_map.mp listed
    obtain rfl := Option.some.inj same
    exact ⟨row, known, inside, args, reported, read⟩
  · intro family either row known register inside args reported
    have listed : (Path.channel family register.1 register.2, row.2)
        ∈ [Family.input, Family.output].flatMap fun family => (channelRows device family).flatMap fun row =>
          (rowRegisters device row.2).map fun register => (.channel family register.1 register.2, row.2) :=
      List.mem_flatMap.mpr ⟨family, either, List.mem_flatMap.mpr ⟨row, known, List.mem_map.mpr ⟨register, inside, rfl⟩⟩⟩
    exact (readSettings_accounts listed reported).imp_left fun ⟨value, read, put⟩ => ⟨value, read, put _ rfl⟩

theorem globalSetting_row (family option : String) (value : Value) :
    globalSetting (.global family (if option = enableOption then none else some option)) value
      = some ⟨family, option, value⟩ := by
  split_ifs with same
  · rw [same]
    rfl
  · rfl

/-- And so it is with the registers without a channel. -/
theorem globalsFromObserved_accounts (seen : Readout) (device : Device) :
    (∀ made ∈ (globalsFromObserved seen (some device)).1, made.family ∈ globalFamilies device
        ∧ ∃ row ∈ settableGlobals (some device) made.family, row.1 = made.option
          ∧ ∃ args, seen.args (.global made.family (if row.1 = enableOption then none else some row.1)) = some args
            ∧ configValue row.2 args = .ok made.value)
      ∧ ∀ family ∈ globalFamilies device, ∀ row ∈ settableGlobals (some device) family, ∀ args,
          seen.args (.global family (if row.1 = enableOption then none else some row.1)) = some args →
            (∃ value, configValue row.2 args = .ok value
              ∧ ⟨family, row.1, value⟩ ∈ (globalsFromObserved seen (some device)).1)
            ∨ ∃ reason, ⟨.global family (if row.1 = enableOption then none else some row.1), reason⟩
              ∈ (globalsFromObserved seen (some device)).2 := by
  constructor
  · intro made member
    obtain ⟨item, listed, args, value, reported, read, same⟩ := mem_readSettings.mp member
    obtain ⟨family, known, listed⟩ := List.mem_flatMap.mp listed
    obtain ⟨row, inside, rfl⟩ := List.mem_map.mp listed
    obtain rfl := Option.some.inj ((globalSetting_row family row.1 value).symm.trans same)
    exact ⟨known, row, (List.mem_insertionSort _).mp inside, rfl, args, reported, read⟩
  · intro family known row inside args reported
    have listed : (Path.global family (if row.1 = enableOption then none else some row.1), row.2)
        ∈ (globalFamilies device).flatMap fun family =>
          ((settableGlobals (some device) family).insertionSort fun first second => first.1 ≤ second.1).map
            fun row => (.global family (if row.1 = enableOption then none else some row.1), row.2) :=
      List.mem_flatMap.mpr ⟨family, known, List.mem_map.mpr ⟨row, (List.mem_insertionSort _).mpr inside, rfl⟩⟩
    exact (readSettings_accounts listed reported).imp_left fun ⟨value, read, put⟩ =>
      ⟨value, read, put _ (globalSetting_row family row.1 value)⟩

end OscmixDesk.Dump
