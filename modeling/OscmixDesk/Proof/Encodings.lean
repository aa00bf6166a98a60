/-
**What the backend makes of a scaled setting.**

A scaled register is a step function of the value (`rawOf`) and a report one of the register (`reportAt`). Both keep
the order, so that a value inside its bounds is reported inside them (`report_accepted`), and the reports of two
registers are a step apart (`reportAt_apart`), which is far more than the tolerance of a comparison: a report
satisfies a value exactly when it is the report of the register the value is written to (`equalFloat_iff`).
-/

import OscmixDesk.Foundation.Nearest
import OscmixDesk.Proof.Acceptance

set_option maxRecDepth 100000

namespace OscmixDesk

open Checks

/-! ### Conversions -/

theorem finite_real (q : ℚ) : finite (.real q) = .ok q := rfl

theorem finite_infinite (negative : Bool) : finite (.float (.infinite negative)) = .error .notFinite := rfl

theorem float32_ok {value : Value} {number : ℚ} (read : float32 value = .ok number) :
    ∃ own, finite value = .ok own ∧ number = round32 own := by
  unfold float32 at read
  obtain ⟨own, finite, read⟩ := bind_eq_ok.mp read
  refine ⟨own, finite, ?_⟩
  split at read
  · exact (pure_eq_ok.mp read).symm
  · cases read

theorem finite_binary64 {q value : ℚ} (read : finite (.float (binary64 q)) = .ok value) : value = round64 q := by
  have held := finite_float read
  unfold binary64 at held
  split at held
  · cases held
  · injection held with same
    exact same.symm

theorem round32_small {q : ℚ} (small : |q| ≤ 2 ^ 101) : |round32 q| < 2 ^ 128 := by
  have error := abs_le.mp (round32_within small (by norm_num))
  have size := abs_le.mp small
  rw [abs_lt]
  constructor <;> linarith [error.1, error.2, size.1, size.2]

theorem round64_small {q : ℚ} (small : |q| ≤ 2 ^ 100) : |round64 q| ≤ 2 ^ 101 := by
  have error := abs_le.mp (round64_within small (by norm_num))
  have size := abs_le.mp small
  rw [abs_le]
  constructor <;> linarith [error.1, error.2, size.1, size.2]

theorem float32_real {q : ℚ} (small : |q| ≤ 2 ^ 100) : float32 (.real q) = .ok (round32 q) := by
  unfold float32
  have fits := round32_small (small.trans (by norm_num))
  show (if |round32 q| < 2 ^ 128 then _ else _) = _
  rw [if_pos fits]
  rfl

theorem binary64_small {q : ℚ} (small : |q| ≤ 2 ^ 100) : binary64 q = .finite (round64 q) := by
  have size := round64_small small
  unfold binary64
  rw [if_neg]
  refine not_le.mpr (lt_of_le_of_lt size ?_)
  exact pow_lt_pow_right₀ (by norm_num) (by norm_num)

theorem float32_binary64 {q : ℚ} (small : |q| ≤ 2 ^ 100) :
    float32 (.float (binary64 q)) = .ok (round32 (round64 q)) := by
  rw [binary64_small small]
  have fits := round32_small (round64_small small)
  show (if |round32 (round64 q)| < 2 ^ 128 then _ else _) = _
  rw [if_pos fits]
  rfl

theorem truncate_mono {p q : ℚ} (less : p ≤ q) : truncate p ≤ truncate q := by
  unfold truncate
  split_ifs with first second second
  · exact Int.floor_mono less
  · exact absurd (first.trans less) second
  · exact (Int.ceil_le.mpr (by push_cast; linarith)).trans (Int.floor_nonneg.mpr second)
  · exact Int.ceil_mono less

theorem lround_mono {p q : ℚ} (less : p ≤ q) : lround p ≤ lround q := by
  have half : round64 (1 / 2) = 1 / 2 := by
    have exact := @roundTo_exact 53 (-1074) 1 (-1) (by norm_num) (by norm_num)
    unfold round64
    simpa using exact
  have other : round64 (-(1 / 2)) = -(1 / 2) := by
    have turned := @roundTo_neg 53 (-1074) (1 / 2)
    unfold round64 at half ⊢
    rw [turned, half]
  unfold lround
  split_ifs with first second second
  · exact Int.floor_mono (round64_mono (by linarith))
  · exact absurd (first.trans less) second
  · have below : round64 (p - 1 / 2) ≤ -(1 / 2) := other ▸ round64_mono (by linarith)
    have above : 1 / 2 ≤ round64 (q + 1 / 2) := half ▸ round64_mono (by linarith)
    exact (Int.ceil_le.mpr (by push_cast; linarith)).trans (Int.floor_nonneg.mpr (by linarith))
  · exact Int.ceil_mono (round64_mono (by linarith))

/-! ### Registers and reports -/

namespace Register

/-- What one unit of a scaled register is worth. -/
def unitStep (row : Register) : ℚ :=
  round32 (row.scale.getD 1)

/-- The register a quantity is written to. -/
def rawOf (row : Register) (quantity : ℚ) : ℤ :=
  if row.truncates then truncate (round32 (round64 (round32 quantity * 10)))
  else lround (round32 (round64 (round32 quantity / row.unitStep)))

/-- The report of a register. -/
def reportAt (row : Register) (raw : ℤ) : ℚ :=
  if row.truncates then round32 (round64 (raw / 10)) else round32 (round64 (raw * row.unitStep))

/-- The least register a quantity of the domain is written to. -/
def lowest (row : Register) : ℤ :=
  row.lo.elim (-32768) row.rawOf

/-- The greatest register a quantity of the domain is written to. -/
def highest (row : Register) : ℤ :=
  row.hi.elim 32767 row.rawOf

/-- How far the reports of two neighbours are apart. -/
def gap (row : Register) : ℚ :=
  if row.truncates then 1 / 10 else row.unitStep

/-- Whether the registers of a scaled row fit 16 bits, and those of its own reports do. -/
def calibrated (row : Register) : Bool :=
  row.scale.all fun scale =>
    (row.startsWith 'f' && row.domain = some .number && !row.mixLevel && |scale| ≤ 1
      && |round64 (scale * literal 1 4)| ≤ row.gap / 1000
      && 1 / 2 ^ 10 ≤ row.unitStep && row.unitStep ≤ 1
      && (row.lo.all fun bound => |bound| ≤ 2 ^ 10) && (row.hi.all fun bound => |bound| ≤ 2 ^ 10)
      && -32768 ≤ row.lowest && row.highest ≤ 32767
      && -32768 ≤ row.rawOf (row.reportAt row.lowest) && row.rawOf (row.reportAt row.highest) ≤ 32767)

end Register

theorem ucx2_calibrated : ∀ row ∈ ucx2.registers, row.calibrated := by decide +kernel

/-- What `calibrated` says of a row with a scale. -/
structure Calibrated (row : Register) (scale : ℚ) : Prop where
  scaled : row.scale = some scale
  float : row.startsWith 'f' = true
  number : row.domain = some .number
  notMix : row.mixLevel = false
  unscaled : |scale| ≤ 1
  tolerance : |round64 (scale * literal 1 4)| ≤ row.gap / 1000
  small : 1 / 2 ^ 10 ≤ row.unitStep
  unit : row.unitStep ≤ 1
  lower : ∀ bound, row.lo = some bound → |bound| ≤ 2 ^ 10
  upper : ∀ bound, row.hi = some bound → |bound| ≤ 2 ^ 10
  lowest : -32768 ≤ row.lowest
  highest : row.highest ≤ 32767
  lowestAgain : -32768 ≤ row.rawOf (row.reportAt row.lowest)
  highestAgain : row.rawOf (row.reportAt row.highest) ≤ 32767

theorem Register.calibrated_scaled {row : Register} {scale : ℚ} (scaled : row.scale = some scale)
    (calibrated : row.calibrated) : Calibrated row scale := by
  unfold Register.calibrated at calibrated
  simp only [scaled, Option.all_some, Bool.and_eq_true, decide_eq_true_eq, Bool.not_eq_true'] at calibrated
  obtain ⟨⟨⟨⟨⟨⟨⟨⟨⟨⟨⟨⟨float, number⟩, notMix⟩, small⟩, tolerance⟩, least⟩, unit⟩, lower⟩, upper⟩, lowest⟩,
    highest⟩, first⟩, last⟩ := calibrated
  refine ⟨scaled, float, number, notMix, small, tolerance, least, unit, fun bound found => ?_, fun bound found => ?_,
    lowest, highest, first, last⟩
  · rw [found] at lower
    simpa using lower
  · rw [found] at upper
    simpa using upper

/-! ### One scaled row -/

section Row

variable {row : Register} {scale : ℚ}

theorem unitStep_scaled (scaled : row.scale = some scale) : row.unitStep = round32 scale := by
  unfold Register.unitStep
  rw [scaled]
  rfl

/-- A register a quantity was found to fit is the one it is written to. -/
theorem rawValue_ok (scaled : row.scale = some scale) {quantity : ℚ} {raw : ℤ}
    (written : rawValue (.real quantity) row = .ok raw) :
    raw = row.rawOf quantity ∧ -32768 ≤ raw ∧ raw ≤ 32767 := by
  unfold rawValue at written
  obtain ⟨own, unbounded, written⟩ := bind_eq_ok.mp written
  split at written
  · next fits =>
      obtain rfl := pure_eq_ok.mp written
      refine ⟨?_, fits⟩
      unfold unboundedRaw at unbounded
      rw [scaled] at unbounded
      obtain ⟨wire, read, unbounded⟩ := bind_eq_ok.mp unbounded
      obtain ⟨number, same, rfl⟩ := float32_ok read
      obtain rfl := Except.ok.inj same
      unfold Register.rawOf
      by_cases truncates : row.truncates
      · rw [if_pos truncates] at unbounded ⊢
        obtain ⟨product, read, unbounded⟩ := bind_eq_ok.mp unbounded
        obtain ⟨number, finite, rfl⟩ := float32_ok read
        rw [← pure_eq_ok.mp unbounded, finite_binary64 finite]
      · rw [if_neg truncates] at unbounded ⊢
        obtain ⟨unit, read, unbounded⟩ := bind_eq_ok.mp unbounded
        obtain ⟨own, same, rfl⟩ := float32_ok read
        obtain rfl := Except.ok.inj same
        obtain ⟨quotient, read, unbounded⟩ := bind_eq_ok.mp unbounded
        obtain ⟨number, finite, rfl⟩ := float32_ok read
        rw [← pure_eq_ok.mp unbounded, finite_binary64 finite, unitStep_scaled scaled]
  · cases written

theorem rawOf_mono (calibrated : Calibrated row scale) {first second : ℚ} (less : first ≤ second) :
    row.rawOf first ≤ row.rawOf second := by
  have small := calibrated.small
  unfold Register.rawOf
  split
  · refine truncate_mono (round32_mono (round64_mono ?_))
    exact mul_le_mul_of_nonneg_right (round32_mono less) (by norm_num)
  · refine lround_mono (round32_mono (round64_mono ?_))
    exact div_le_div_of_nonneg_right (round32_mono less) (le_trans (by norm_num) small)

theorem reportAt_mono (calibrated : Calibrated row scale) {first second : ℤ} (less : first ≤ second) :
    row.reportAt first ≤ row.reportAt second := by
  have small := calibrated.small
  have raws : (first : ℚ) ≤ second := by exact_mod_cast less
  unfold Register.reportAt
  split
  · exact round32_mono (round64_mono (div_le_div_of_nonneg_right raws (by norm_num)))
  · exact round32_mono (round64_mono (mul_le_mul_of_nonneg_right raws (le_trans (by norm_num) small)))

/-- How far two roundings in a row are from their argument. -/
theorem rounded_near {q bound : ℚ} (size : |q| ≤ bound) (low : 1 / 2 ^ 100 ≤ bound) :
    |round32 (round64 q) - q| ≤ bound / 2 ^ 22 := by
  have first := abs_le.mp (round64_within size (le_trans (by norm_num) low))
  have sizes := abs_le.mp size
  have inner : |round64 q| ≤ 2 * bound := by
    rw [abs_le]
    constructor <;> linarith [first.1, first.2, sizes.1, sizes.2]
  have second := abs_le.mp (round32_within inner (low.trans (by linarith [abs_nonneg q])))
  rw [abs_le]
  constructor <;> linarith [first.1, first.2, second.1, second.2, abs_nonneg q]

theorem gap_bounds (calibrated : Calibrated row scale) : 1 / 2 ^ 10 ≤ row.gap ∧ row.gap ≤ 1 := by
  unfold Register.gap
  split
  · norm_num
  · exact ⟨calibrated.small, calibrated.unit⟩

/-- A report is the value of its register, but for a two hundredth of a unit. -/
theorem reportAt_near (calibrated : Calibrated row scale) {raw : ℤ} (fits : -32768 ≤ raw ∧ raw ≤ 32767) :
    |row.reportAt raw - raw * row.gap| ≤ row.gap / 100 := by
  have bounds := gap_bounds calibrated
  have low : (-32768 : ℚ) ≤ raw := by exact_mod_cast fits.1
  have high : (raw : ℚ) ≤ 32767 := by exact_mod_cast fits.2
  have product : |(raw : ℚ) * row.gap| ≤ 2 ^ 15 * row.gap := by
    rw [abs_mul, abs_of_nonneg (show 0 ≤ row.gap by linarith [bounds.1])]
    refine mul_le_mul_of_nonneg_right ?_ (by linarith [bounds.1])
    rw [abs_le]
    constructor <;> linarith
  have value : row.reportAt raw = round32 (round64 (raw * row.gap)) := by
    unfold Register.reportAt Register.gap
    split
    · rw [mul_one_div]
    · rfl
  rw [value]
  refine (rounded_near product (by linarith [bounds.1])).trans ?_
  linarith [bounds.1]

/-- The reports of two registers are a unit apart. -/
theorem reportAt_apart (calibrated : Calibrated row scale) {first second : ℤ} (less : first < second)
    (low : -32768 ≤ first) (high : second ≤ 32767) :
    row.gap * (49 / 50) ≤ row.reportAt second - row.reportAt first := by
  have lower := abs_le.mp (reportAt_near calibrated ⟨low, by omega⟩)
  have upper := abs_le.mp (reportAt_near calibrated ⟨by omega, high⟩)
  have bounds := gap_bounds calibrated
  have units : (first : ℚ) + 1 ≤ second := by exact_mod_cast less
  have apart := mul_le_mul_of_nonneg_right units (show 0 ≤ row.gap by linarith [bounds.1])
  linarith [lower.1, lower.2, upper.1, upper.2]

theorem reportAt_size (calibrated : Calibrated row scale) {raw : ℤ} (fits : -32768 ≤ raw ∧ raw ≤ 32767) :
    |row.reportAt raw| ≤ 32769 * row.gap := by
  have near := abs_le.mp (reportAt_near calibrated fits)
  have bounds := gap_bounds calibrated
  have low : (-32768 : ℚ) ≤ raw := by exact_mod_cast fits.1
  have high : (raw : ℚ) ≤ 32767 := by exact_mod_cast fits.2
  have lower := mul_le_mul_of_nonneg_right low (show 0 ≤ row.gap by linarith [bounds.1])
  have upper := mul_le_mul_of_nonneg_right high (show 0 ≤ row.gap by linarith [bounds.1])
  rw [abs_le]
  constructor <;> linarith [near.1, near.2]

theorem reportOfRaw_eq (calibrated : Calibrated row scale) {raw : ℤ} (fits : -32768 ≤ raw ∧ raw ≤ 32767) :
    reportOfRaw raw row = .ok (row.reportAt raw) := by
  have low : (-32768 : ℚ) ≤ raw := by exact_mod_cast fits.1
  have high : (raw : ℚ) ≤ 32767 := by exact_mod_cast fits.2
  unfold reportOfRaw Register.reportAt
  split
  · refine float32_binary64 ?_
    rw [abs_le]
    constructor <;> linarith
  · have unit : float32 (.real (row.scale.getD 1)) = .ok row.unitStep := by
      rw [calibrated.scaled]
      exact (float32_real (calibrated.unscaled.trans (by norm_num))).trans (by rw [unitStep_scaled calibrated.scaled])
    rw [unit]
    refine float32_binary64 ?_
    have least := calibrated.small
    have most := calibrated.unit
    have lower := mul_le_mul_of_nonneg_right low (show 0 ≤ row.unitStep by linarith)
    have upper := mul_le_mul_of_nonneg_right high (show 0 ≤ row.unitStep by linarith)
    rw [abs_le]
    constructor <;> linarith

theorem expectedReport_eq (calibrated : Calibrated row scale) {quantity : ℚ} {raw : ℤ}
    (written : rawValue (.real quantity) row = .ok raw) :
    expectedReport (.real quantity) row = .ok (row.reportAt raw) := by
  unfold expectedReport
  rw [written]
  exact reportOfRaw_eq calibrated (rawValue_ok calibrated.scaled written).2

/-- A quantity whose register fits is written. -/
theorem rawValue_fits (calibrated : Calibrated row scale) {quantity : ℚ} (small : |quantity| ≤ 2 ^ 20)
    (low : -32768 ≤ row.rawOf quantity) (high : row.rawOf quantity ≤ 32767) :
    rawValue (.real quantity) row = .ok (row.rawOf quantity) := by
  have error := abs_le.mp (round32_within small (by norm_num))
  have size := abs_le.mp small
  have wire : |round32 quantity| ≤ 2 ^ 21 := by
    rw [abs_le]
    constructor <;> linarith [error.1, error.2, size.1, size.2]
  have unbounded : unboundedRaw (.real quantity) row = .ok (row.rawOf quantity) := by
    unfold unboundedRaw Register.rawOf
    rw [calibrated.scaled]
    dsimp only
    rw [float32_real (small.trans (by norm_num))]
    split
    · have product : |round32 quantity * 10| ≤ 2 ^ 100 := by
        rw [abs_mul]
        refine (mul_le_mul_of_nonneg_right wire (abs_nonneg _)).trans ?_
        norm_num
      show (float32 (.float (binary64 (round32 quantity * 10))) >>= _) = _
      rw [float32_binary64 product]
      rfl
    · have least := calibrated.small
      have quotient : |round32 quantity / row.unitStep| ≤ 2 ^ 100 := by
        rw [abs_div, abs_of_pos (show 0 < row.unitStep by linarith), div_le_iff₀ (by linarith)]
        linarith
      rw [unitStep_scaled calibrated.scaled] at quotient ⊢
      show (float32 (.real scale) >>= _) = _
      rw [float32_real (calibrated.unscaled.trans (by norm_num))]
      show (float32 (.float (binary64 (round32 quantity / round32 scale))) >>= _) = _
      rw [float32_binary64 quotient]
      rfl
  unfold rawValue
  rw [unbounded]
  show (if _ then _ else _) = _
  rw [if_pos ⟨low, high⟩]
  rfl

/-! ### Domains -/

/-- A bound of a quantity, and the report it is held to. -/
theorem limitOf_reported (calibrated : Calibrated row scale) {bound : ℚ} (small : |bound| ≤ 2 ^ 10)
    (fits : -32768 ≤ row.rawOf bound ∧ row.rawOf bound ≤ 32767) (lower : Bool) :
    limitOf bound lower true row = .ok (if lower then min (round32 bound) (row.reportAt (row.rawOf bound))
      else max (round32 bound) (row.reportAt (row.rawOf bound))) := by
  have encoded := expectedReport_eq calibrated
    (rawValue_fits calibrated (small.trans (by norm_num)) fits.1 fits.2)
  unfold limitOf
  rw [calibrated.float, calibrated.scaled, float32_real (small.trans (by norm_num)), encoded]
  rfl

/-- What `numberValue` has checked of a scaled quantity. -/
theorem numberValue_ok (calibrated : Calibrated row scale) {quantity : ℚ} {reported : Bool}
    (accepted : numberValue (.real quantity) row reported = .ok quantity) :
    rawValue (.real quantity) row = .ok (row.rawOf quantity)
      ∧ checkBound row.lo true reported row quantity = .ok ()
      ∧ checkBound row.hi false reported row quantity = .ok () := by
  unfold numberValue at accepted
  obtain ⟨own, read, accepted⟩ := bind_eq_ok.mp accepted
  obtain rfl : quantity = own := Except.ok.inj read
  rw [if_pos (by simp [calibrated.scaled])] at accepted
  obtain ⟨raw, written, accepted⟩ := bind_eq_ok.mp accepted
  obtain ⟨⟨⟩, lower, accepted⟩ := bind_eq_ok.mp accepted
  obtain ⟨⟨⟩, upper, -⟩ := bind_eq_ok.mp accepted
  rw [written, (rawValue_ok calibrated.scaled written).1]
  exact ⟨rfl, lower, upper⟩

theorem numberValue_of (calibrated : Calibrated row scale) {quantity : ℚ} {raw : ℤ} {reported : Bool}
    (written : rawValue (.real quantity) row = .ok raw)
    (lower : checkBound row.lo true reported row quantity = .ok ())
    (upper : checkBound row.hi false reported row quantity = .ok ()) :
    numberValue (.real quantity) row reported = .ok quantity := by
  unfold numberValue
  show (if _ then _ else _) = _
  rw [if_pos (by simp [calibrated.scaled]), written, lower, upper]
  rfl

theorem checkBound_written {bound : Option ℚ} {lower : Bool} {quantity : ℚ}
    (checked : checkBound bound lower false row quantity = .ok ()) :
    ∀ limit, bound = some limit → if lower then limit ≤ quantity else quantity ≤ limit := by
  rintro limit rfl
  unfold checkBound limitOf at checked
  simp only [Bool.false_and, Bool.false_eq_true, if_false] at checked
  obtain ⟨own, same, checked⟩ := bind_eq_ok.mp checked
  obtain rfl := pure_eq_ok.mp same
  cases lower with
  | true =>
      by_contra outside
      rw [if_pos (by simpa using outside)] at checked
      cases checked
  | false =>
      by_contra outside
      rw [if_pos (by simpa using outside)] at checked
      cases checked

/-- The register of a quantity of the domain lies between those of the bounds. -/
theorem rawOf_between (calibrated : Calibrated row scale) {quantity : ℚ}
    (accepted : numberValue (.real quantity) row = .ok quantity) :
    row.lowest ≤ row.rawOf quantity ∧ row.rawOf quantity ≤ row.highest := by
  obtain ⟨written, lower, upper⟩ := numberValue_ok calibrated accepted
  have fits := (rawValue_ok calibrated.scaled written).2
  have below := checkBound_written lower
  have above := checkBound_written upper
  unfold Register.lowest Register.highest
  constructor
  · cases held : row.lo with
    | none => exact fits.1
    | some bound => exact rawOf_mono calibrated (below bound held)
  · cases held : row.hi with
    | none => exact fits.2
    | some bound => exact rawOf_mono calibrated (above bound held)

/-- A report between those of the bounds passes them. -/
theorem checkBound_reported (calibrated : Calibrated row scale) {raw : ℤ} (low : row.lowest ≤ raw)
    (high : raw ≤ row.highest) :
    checkBound row.lo true true row (row.reportAt raw) = .ok ()
      ∧ checkBound row.hi false true row (row.reportAt raw) = .ok () := by
  have least := calibrated.lowest
  have most := calibrated.highest
  constructor
  · cases held : row.lo with
    | none => rfl
    | some bound =>
        have own : row.lowest = row.rawOf bound := by simp [Register.lowest, held]
        have limit := limitOf_reported calibrated (calibrated.lower bound held) ⟨by omega, by omega⟩ true
        unfold checkBound
        dsimp only
        rw [limit]
        refine if_neg (not_lt.mpr ?_)
        exact (min_le_right _ _).trans (reportAt_mono calibrated (own ▸ low))
  · cases held : row.hi with
    | none => rfl
    | some bound =>
        have own : row.highest = row.rawOf bound := by simp [Register.highest, held]
        have limit := limitOf_reported calibrated (calibrated.upper bound held) ⟨by omega, by omega⟩ false
        unfold checkBound
        dsimp only
        rw [limit]
        refine if_neg (not_lt.mpr ?_)
        exact (reportAt_mono calibrated (own ▸ high)).trans (le_max_right _ _)

/-- The report of a register between those of the bounds is a quantity of the domain. -/
theorem report_in_domain (calibrated : Calibrated row scale) {raw : ℤ} (low : row.lowest ≤ raw)
    (high : raw ≤ row.highest) :
    numberValue (.real (row.reportAt raw)) row true = .ok (row.reportAt raw) := by
  have least := calibrated.lowest
  have most := calibrated.highest
  have size := @reportAt_size _ _ calibrated raw ⟨by omega, by omega⟩
  have unit := (gap_bounds calibrated).2
  have lower := rawOf_mono calibrated (reportAt_mono calibrated low)
  have upper := rawOf_mono calibrated (reportAt_mono calibrated high)
  have written := rawValue_fits calibrated (size.trans (by linarith))
    (calibrated.lowestAgain.trans lower) (upper.trans calibrated.highestAgain)
  obtain ⟨passes, passes'⟩ := checkBound_reported calibrated low high
  exact numberValue_of calibrated written passes passes'

/-- The report of a setting is inside the domain of its register. -/
theorem report_accepted (calibrated : Calibrated row scale) {quantity : ℚ}
    (accepted : numberValue (.real quantity) row = .ok quantity) :
    expectedReport (.real quantity) row = .ok (row.reportAt (row.rawOf quantity))
      ∧ numberValue (.real (row.reportAt (row.rawOf quantity))) row true
        = .ok (row.reportAt (row.rawOf quantity)) := by
  obtain ⟨written, -, -⟩ := numberValue_ok calibrated accepted
  obtain ⟨low, high⟩ := rawOf_between calibrated accepted
  exact ⟨expectedReport_eq calibrated written, report_in_domain calibrated low high⟩

/-! ### Comparison -/

theorem isClose_self (value relative absolute : ℚ) : isClose value value relative absolute = true := by
  simp [isClose]

/-- The tolerance of a comparison is less than the distance of two reports. -/
theorem not_isClose (calibrated : Calibrated row scale) {first second : ℤ}
    (fits : -32768 ≤ first ∧ first ≤ 32767) (fits' : -32768 ≤ second ∧ second ≤ 32767)
    (other : first ≠ second) :
    isClose (row.reportAt first) (row.reportAt second) (literal 2 7) (round64 (scale * literal 1 4)) = false := by
  have bounds := gap_bounds calibrated
  have size := reportAt_size calibrated fits
  have size' := reportAt_size calibrated fits'
  have constant : literal 2 7 = 7555786372591432 / 37778931862957161709568 := by decide +kernel
  have distance : row.gap * (49 / 50) ≤ |row.reportAt first - row.reportAt second| := by
    rcases lt_or_gt_of_ne other with less | more
    · have apart := reportAt_apart calibrated less fits.1 fits'.2
      rw [abs_sub_comm]
      exact apart.trans (le_abs_self _)
    · exact (reportAt_apart calibrated more fits'.1 fits.2).trans (le_abs_self _)
  have near : |round64 (row.reportAt first - row.reportAt second) - (row.reportAt first - row.reportAt second)|
      ≤ row.gap / 50 := by
    have reach : |row.reportAt first - row.reportAt second| ≤ 2 ^ 17 * row.gap := by
      refine (abs_sub _ _).trans ?_
      linarith
    refine (round64_within reach (by linarith [bounds.1])).trans ?_
    linarith [bounds.1]
  have rounded : row.gap * (24 / 25) ≤ |round64 (row.reportAt first - row.reportAt second)| := by
    have triangle := abs_sub_abs_le_abs_sub (row.reportAt first - row.reportAt second)
      (round64 (row.reportAt first - row.reportAt second))
    rw [abs_sub_comm _ (round64 _)] at triangle
    linarith
  have relative : ∀ value : ℚ, |value| ≤ 32769 * row.gap → |round64 (literal 2 7 * value)| ≤ row.gap / 50 := by
    intro value small
    have product : |literal 2 7 * value| ≤ row.gap / 100 := by
      rw [constant, abs_mul, abs_of_pos (by norm_num)]
      linarith
    have error := round64_within product (by linarith [bounds.1])
    have triangle := abs_sub_abs_le_abs_sub (round64 (literal 2 7 * value)) (literal 2 7 * value)
    linarith [bounds.1]
  have apart : row.reportAt first ≠ row.reportAt second := by
    intro same
    rw [same, sub_self, abs_zero] at distance
    linarith [bounds.1]
  have first' := relative _ size
  have second' := relative _ size'
  have absolute := (le_abs_self _).trans calibrated.tolerance
  unfold isClose
  simp only [Bool.or_eq_false_iff, decide_eq_false_iff_not, not_le]
  refine ⟨⟨⟨apart, ?_⟩, ?_⟩, ?_⟩ <;> linarith [bounds.1]

/-- The report of a register satisfies a quantity exactly when the quantity is written to that register. -/
theorem equalFloat_reportAt (calibrated : Calibrated row scale) {quantity : ℚ}
    (accepted : numberValue (.real quantity) row = .ok quantity) {raw : ℤ} (fits : -32768 ≤ raw ∧ raw ≤ 32767)
    (tolerance : Option ℚ) :
    (equalFloat (.real quantity) (.real (row.reportAt raw)) (some row) tolerance).toOption.getD false
      = decide (raw = row.rawOf quantity) := by
  obtain ⟨expected, inside⟩ := report_accepted calibrated accepted
  obtain ⟨least, most⟩ := rawOf_between calibrated accepted
  have bounds := calibrated.lowest
  have bounds' := calibrated.highest
  have plain : Option.filter (fun own : Register => own.mixLevel) (some row) = none := by
    rw [Option.filter_some, if_neg (by simp [calibrated.notMix])]
  have own : Option.filter (fun own : Register => decide (own.domain = some .number)) (some row) = some row := by
    rw [Option.filter_some, if_pos (by simp [calibrated.number])]
  unfold equalFloat
  rw [plain, own]
  simp only [finite_real, bind, Except.bind, accepted, calibrated.scaled, expected, pure, Except.pure]
  by_cases same : raw = row.rawOf quantity
  · rw [same, inside, decide_eq_true rfl]
    show (some (isClose _ _ _ _)).getD false = true
    rw [isClose_self]
    rfl
  · rw [decide_eq_false same]
    cases numberValue (.real (row.reportAt raw)) row true with
    | error problem => rfl
    | ok number =>
        show (some (isClose _ _ _ _)).getD false = false
        rw [not_isClose calibrated fits ⟨by omega, by omega⟩ same]
        rfl

end Row

/-- **A read-back of a scaled setting is exact.** Of all the registers of a row, a report satisfies a setting of its
domain exactly when it is the report of the register the setting is written to. -/
theorem scaledReport_matches {row : Register} (member : row ∈ ucx2.registers) {scale : ℚ}
    (scaled : row.scale = some scale) {quantity : ℚ} (accepted : numberValue (.real quantity) row = .ok quantity)
    {raw : ℤ} (fits : -32768 ≤ raw ∧ raw ≤ 32767) {report : ℚ} (reported : reportOfRaw raw row = .ok report)
    (tolerance : Option ℚ) :
    matchesReport "f" [.real quantity] [.real report] tolerance (some row) = true
      ↔ rawValue (.real quantity) row = .ok raw := by
  have calibrated := Register.calibrated_scaled scaled (ucx2_calibrated row member)
  obtain rfl : row.reportAt raw = report := Except.ok.inj ((reportOfRaw_eq calibrated fits).symm.trans reported)
  have equal := equalFloat_reportAt calibrated accepted fits tolerance
  have single : "f".toList = ['f'] := by decide
  have agrees : matchesReport "f" [.real quantity] [.real (row.reportAt raw)] tolerance (some row)
      = decide (raw = row.rawOf quantity) := by
    simp [matchesReport, single, argsMatch, argMatches, equal]
  rw [agrees, decide_eq_true_iff, (numberValue_ok calibrated accepted).1, Except.ok.injEq]
  exact eq_comm

/-- The fader at -20.3 dB is confirmed by the report of its register, and not by the next one. -/
theorem scaledReport_matches_fader :
    matchesReport "f" [.real (literal (-203) 1)] [.real (round32 (round64 (-203 * round32 (literal 1 1))))] none
        (some (levelRow .output "volume" "output" levelMin levelMax (literal 1 1))) = true
      ∧ ¬matchesReport "f" [.real (literal (-203) 1)] [.real (round32 (round64 (-202 * round32 (literal 1 1))))] none
        (some (levelRow .output "volume" "output" levelMin levelMax (literal 1 1))) = true := by
  have exact (raw : ℤ) (fits : -32768 ≤ raw ∧ raw ≤ 32767) (report : ℚ) := @scaledReport_matches
    (levelRow .output "volume" "output" levelMin levelMax (literal 1 1)) (by decide +kernel) (literal 1 1) rfl
    (literal (-203) 1) (by decide +kernel) raw fits report
  constructor
  · exact (exact (-203) (by norm_num) _ (by decide +kernel) none).mpr (by decide +kernel)
  · intro matched
    exact absurd ((exact (-202) (by norm_num) _ (by decide +kernel) none).mp matched) (by decide +kernel)

end OscmixDesk
