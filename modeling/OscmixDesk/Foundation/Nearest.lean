/-
**What a rounding to the nearest number keeps.**

`roundHalfEven` is within a half of its argument, keeps the order and is the identity on the integers; so is
`roundTo` on its own grid: it keeps the order (`roundTo_mono`) and every number of the format
(`roundTo_exact`), and is within a part in `2 ^ precision` of its argument, or within half of the last digit
there is (`roundTo_error`).
-/

import Mathlib.Algebra.Order.Field.Power
import Mathlib.Algebra.Order.Floor.Ring
import Mathlib.Tactic.Linarith
import Mathlib.Tactic.NormNum
import Mathlib.Tactic.Positivity
import Mathlib.Tactic.Ring
import OscmixDesk.Foundation.Rounding

namespace OscmixDesk

/-! ### Integers -/

theorem roundHalfEven_error (q : ℚ) : |(roundHalfEven q : ℚ) - q| ≤ 1 / 2 := by
  have below := Int.floor_le q
  have above := Int.lt_floor_add_one q
  unfold roundHalfEven
  rw [abs_le]
  split_ifs <;> push_cast <;> constructor <;> linarith

/-- A number nearer than a half to an integer rounds to it. -/
theorem roundHalfEven_near {q : ℚ} {n : ℤ} (near : |q - n| < 1 / 2) : roundHalfEven q = n := by
  have error := abs_le.mp (roundHalfEven_error q)
  have near := abs_lt.mp near
  have below : (roundHalfEven q : ℚ) < (n : ℚ) + 1 := by linarith
  have above : (n : ℚ) < (roundHalfEven q : ℚ) + 1 := by linarith
  have below : roundHalfEven q < n + 1 := by exact_mod_cast below
  have above : n < roundHalfEven q + 1 := by exact_mod_cast above
  omega

@[simp] theorem roundHalfEven_intCast (n : ℤ) : roundHalfEven (n : ℚ) = n :=
  roundHalfEven_near (by norm_num)

@[simp] theorem roundHalfEven_zero : roundHalfEven 0 = 0 := by
  exact_mod_cast roundHalfEven_intCast 0

theorem roundHalfEven_neg (q : ℚ) : roundHalfEven (-q) = -roundHalfEven q := by
  have error := abs_le.mp (roundHalfEven_error q)
  by_cases tie : |q - roundHalfEven q| < 1 / 2
  · refine roundHalfEven_near ?_
    rw [← abs_neg]
    push_cast
    rw [show -(-q - -(roundHalfEven q : ℚ)) = q - roundHalfEven q by ring]
    exact tie
  · -- a tie: the fractional part is a half on either side, and the parity decides
    have below := Int.floor_le q
    have above := Int.lt_floor_add_one q
    have half : q - ⌊q⌋ = 1 / 2 := by
      by_contra other
      refine tie ?_
      unfold roundHalfEven
      split_ifs with less more even
      · rw [abs_lt]
        constructor <;> linarith
      · push_cast
        rw [abs_lt]
        constructor <;> linarith
      · exact absurd (le_antisymm (not_lt.mp more) (not_lt.mp less)) other
      · exact absurd (le_antisymm (not_lt.mp more) (not_lt.mp less)) other
    have floor : ⌊-q⌋ = -⌊q⌋ - 1 := by
      rw [Int.floor_eq_iff]
      push_cast
      constructor <;> linarith
    have other : -q - ⌊-q⌋ = 1 / 2 := by
      rw [floor]
      push_cast
      linarith
    unfold roundHalfEven
    rw [half, other, floor]
    norm_num
    split_ifs <;> omega

theorem roundHalfEven_mono {p q : ℚ} (less : p ≤ q) : roundHalfEven p ≤ roundHalfEven q := by
  have floors := Int.floor_mono less
  rcases floors.lt_or_eq with apart | same
  · -- another integer lies between
    have first := abs_le.mp (roundHalfEven_error p)
    have second := abs_le.mp (roundHalfEven_error q)
    have top : roundHalfEven p ≤ ⌊p⌋ + 1 := by
      unfold roundHalfEven
      split_ifs <;> omega
    have bottom : ⌊q⌋ ≤ roundHalfEven q := by
      unfold roundHalfEven
      split_ifs <;> omega
    omega
  · unfold roundHalfEven
    rw [same]
    split_ifs <;> first | omega | (exfalso; linarith)

/-! ### The grid of a format -/

section Grid

variable {precision : ℕ} {least : ℤ}

/-- The quantum never exceeds that of a larger number. -/
theorem quantum_mono {p q : ℚ} (nonzero : p ≠ 0) (less : |p| ≤ |q|) :
    quantum precision least p ≤ quantum precision least q := by
  unfold quantum
  have logs := Int.log_mono_right (b := 2) (abs_pos.mpr nonzero) less
  omega

theorem quantum_neg (q : ℚ) : quantum precision least (-q) = quantum precision least q := by
  unfold quantum
  rw [abs_neg]

theorem roundTo_neg (q : ℚ) : roundTo precision least (-q) = -roundTo precision least q := by
  unfold roundTo
  rw [quantum_neg, neg_div, roundHalfEven_neg]
  push_cast
  ring

@[simp] theorem roundTo_zero : roundTo precision least 0 = 0 := by
  unfold roundTo
  rw [zero_div, roundHalfEven_zero]
  push_cast
  ring

/-- A multiple of the quantum is kept. -/
theorem roundTo_multiple {q : ℚ} {m : ℤ} (multiple : q = m * (2 : ℚ) ^ quantum precision least q) :
    roundTo precision least q = q := by
  have positive : (2 : ℚ) ^ quantum precision least q ≠ 0 := by positivity
  have whole : q / (2 : ℚ) ^ quantum precision least q = m := by
    rw [div_eq_iff positive]
    exact multiple
  unfold roundTo
  rw [whole, roundHalfEven_intCast]
  exact multiple.symm

/-- A number of few digits is kept. -/
theorem roundTo_exact {m e : ℤ} (digits : |m| < 2 ^ precision) (low : least ≤ e) :
    roundTo precision least (m * (2 : ℚ) ^ e) = m * (2 : ℚ) ^ e := by
  have scale : (0 : ℚ) < (2 : ℚ) ^ e := by positivity
  by_cases zero : m = 0
  · rw [zero]
    push_cast
    rw [zero_mul, roundTo_zero]
  have size : |(m : ℚ) * (2 : ℚ) ^ e| < (2 : ℚ) ^ ((precision : ℤ) + e) := by
    rw [abs_mul, abs_of_pos scale, zpow_add₀ (by norm_num), zpow_natCast]
    have : |(m : ℚ)| < (2 : ℚ) ^ precision := by exact_mod_cast digits
    exact mul_lt_mul_of_pos_right this scale
  have nonzero : 0 < |(m : ℚ) * (2 : ℚ) ^ e| :=
    abs_pos.mpr (mul_ne_zero (by exact_mod_cast zero) scale.ne')
  have log : Int.log 2 |(m : ℚ) * (2 : ℚ) ^ e| < precision + e :=
    (Int.lt_zpow_iff_log_lt (by norm_num) nonzero).mp (by exact_mod_cast size)
  have small : quantum precision least ((m : ℚ) * (2 : ℚ) ^ e) ≤ e := by
    unfold quantum
    omega
  obtain ⟨k, rest⟩ := Int.le.dest small
  refine roundTo_multiple (m := m * 2 ^ k) ?_
  push_cast
  rw [mul_assoc, ← zpow_natCast, ← zpow_add₀ (by norm_num), add_comm (k : ℤ), rest]

/-- An integer of few digits is kept. -/
theorem roundTo_int {m : ℤ} (digits : |m| < 2 ^ precision) (low : least ≤ 0) :
    roundTo precision least m = m := by
  have exact := roundTo_exact (e := 0) digits low
  rwa [zpow_zero, mul_one] at exact

/-- How far a rounding is from its argument, by the last digit it keeps. -/
theorem roundTo_near (q : ℚ) :
    |roundTo precision least q - q| ≤ (2 : ℚ) ^ quantum precision least q / 2 := by
  have scale : (0 : ℚ) < (2 : ℚ) ^ quantum precision least q := by positivity
  have error := roundHalfEven_error (q / (2 : ℚ) ^ quantum precision least q)
  have split : roundTo precision least q - q
      = ((roundHalfEven (q / (2 : ℚ) ^ quantum precision least q) : ℚ)
        - q / (2 : ℚ) ^ quantum precision least q) * (2 : ℚ) ^ quantum precision least q := by
    unfold roundTo
    rw [sub_mul, div_mul_cancel₀ _ scale.ne']
  rw [split, abs_mul, abs_of_pos scale]
  calc _ ≤ 1 / 2 * (2 : ℚ) ^ quantum precision least q := mul_le_mul_of_nonneg_right error scale.le
    _ = _ := by ring

/-- How far a rounding is from its argument: a part in `2 ^ precision`, or half of the least digit. -/
theorem roundTo_error (q : ℚ) :
    |roundTo precision least q - q| ≤ max (|q| / 2 ^ precision) ((2 : ℚ) ^ least / 2) := by
  by_cases zero : q = 0
  · subst zero
    rw [roundTo_zero, sub_zero, abs_zero]
    exact le_max_of_le_right (by positivity)
  refine (roundTo_near q).trans ?_
  unfold quantum
  rcases le_total (Int.log 2 |q| + 1 - precision) least with low | high
  · rw [max_eq_right low]
    exact le_max_right _ _
  · rw [max_eq_left high]
    refine le_max_of_le_left ?_
    have log : (2 : ℚ) ^ Int.log 2 |q| ≤ |q| := by
      exact_mod_cast Int.zpow_log_le_self (b := 2) (by norm_num) (abs_pos.mpr zero)
    rw [zpow_sub₀ (by norm_num), zpow_add₀ (by norm_num), zpow_natCast, zpow_one, div_div,
      mul_comm ((2 : ℚ) ^ precision) 2, ← div_div, mul_div_assoc, div_self (by norm_num), mul_one]
    exact div_le_div_of_nonneg_right log (by positivity)

/-- The error of a rounding, for arguments up to a bound. -/
theorem roundTo_within {q bound : ℚ} (size : |q| ≤ bound) (low : (2 : ℚ) ^ least / 2 ≤ bound / 2 ^ precision) :
    |roundTo precision least q - q| ≤ bound / 2 ^ precision :=
  (roundTo_error q).trans (max_le (div_le_div_of_nonneg_right size (by positivity)) low)

/-- Of two numbers written on one grid, the order is kept. -/
theorem roundTo_le_of_same {p q : ℚ} (less : p ≤ q)
    (same : quantum precision least p = quantum precision least q) :
    roundTo precision least p ≤ roundTo precision least q := by
  have scale : (0 : ℚ) < (2 : ℚ) ^ quantum precision least q := by positivity
  unfold roundTo
  rw [same]
  refine mul_le_mul_of_nonneg_right ?_ scale.le
  exact_mod_cast roundHalfEven_mono (div_le_div_of_nonneg_right less scale.le)

/-- What lies below a power of two of the grid stays below it. -/
theorem roundTo_le_power {q : ℚ} {e : ℤ} (small : quantum precision least q ≤ e) (less : q ≤ (2 : ℚ) ^ e) :
    roundTo precision least q ≤ (2 : ℚ) ^ e := by
  have scale : (0 : ℚ) < (2 : ℚ) ^ quantum precision least q := by positivity
  obtain ⟨k, rest⟩ := Int.le.dest small
  have power : (2 : ℚ) ^ e = ((2 ^ k : ℤ) : ℚ) * (2 : ℚ) ^ quantum precision least q := by
    push_cast
    rw [← zpow_natCast, ← zpow_add₀ (by norm_num), add_comm (k : ℤ), rest]
  have bound : roundHalfEven (q / (2 : ℚ) ^ quantum precision least q) ≤ 2 ^ k := by
    rw [← roundHalfEven_intCast (2 ^ k)]
    refine roundHalfEven_mono ((div_le_iff₀ scale).mpr ?_)
    rwa [← power]
  unfold roundTo
  rw [power]
  exact mul_le_mul_of_nonneg_right (by exact_mod_cast bound) scale.le

/-- What lies above a power of two of the grid stays above it. -/
theorem power_le_roundTo {q : ℚ} {e : ℤ} (small : quantum precision least q ≤ e) (less : (2 : ℚ) ^ e ≤ q) :
    (2 : ℚ) ^ e ≤ roundTo precision least q := by
  have scale : (0 : ℚ) < (2 : ℚ) ^ quantum precision least q := by positivity
  obtain ⟨k, rest⟩ := Int.le.dest small
  have power : (2 : ℚ) ^ e = ((2 ^ k : ℤ) : ℚ) * (2 : ℚ) ^ quantum precision least q := by
    push_cast
    rw [← zpow_natCast, ← zpow_add₀ (by norm_num), add_comm (k : ℤ), rest]
  have bound : 2 ^ k ≤ roundHalfEven (q / (2 : ℚ) ^ quantum precision least q) := by
    rw [← roundHalfEven_intCast (2 ^ k)]
    refine roundHalfEven_mono ((le_div_iff₀ scale).mpr ?_)
    rwa [← power]
  unfold roundTo
  rw [power]
  exact mul_le_mul_of_nonneg_right (by exact_mod_cast bound) scale.le

theorem roundTo_nonneg {q : ℚ} (sign : 0 ≤ q) : 0 ≤ roundTo precision least q := by
  have scale : (0 : ℚ) < (2 : ℚ) ^ quantum precision least q := by positivity
  have whole : 0 ≤ roundHalfEven (q / (2 : ℚ) ^ quantum precision least q) := by
    rw [← roundHalfEven_zero]
    exact roundHalfEven_mono (div_nonneg sign scale.le)
  exact mul_nonneg (by exact_mod_cast whole) scale.le

/-- The order of the numbers above zero is kept: between two grids lies a power of two of both. -/
theorem roundTo_le_of_pos (digits : 0 < precision) {p q : ℚ} (sign : 0 < p) (less : p ≤ q) :
    roundTo precision least p ≤ roundTo precision least q := by
  have larger : 0 < q := sign.trans_le less
  by_cases same : quantum precision least p = quantum precision least q
  · exact roundTo_le_of_same less same
  have sizes : |p| ≤ |q| := by rwa [abs_of_pos sign, abs_of_pos larger]
  have grows : quantum precision least p ≤ quantum precision least q := quantum_mono sign.ne' sizes
  have own : quantum precision least q = Int.log 2 q + 1 - precision := by
    unfold quantum at same grows ⊢
    rw [abs_of_pos larger] at same grows ⊢
    omega
  have apart : Int.log 2 p < Int.log 2 q := by
    unfold quantum at same grows own
    rw [abs_of_pos larger] at same grows own
    rw [abs_of_pos sign] at same grows
    omega
  have below : p < (2 : ℚ) ^ Int.log 2 q := by
    exact_mod_cast (Int.lt_zpow_iff_log_lt (by norm_num) sign).mpr apart
  have above : (2 : ℚ) ^ Int.log 2 q ≤ q := by
    exact_mod_cast Int.zpow_log_le_self (b := 2) (by norm_num) larger
  exact (roundTo_le_power (by omega) below.le).trans (power_le_roundTo (by omega) above)

/-- A rounding keeps the order. -/
theorem roundTo_mono (digits : 0 < precision) : Monotone (roundTo precision least) := by
  intro p q less
  rcases lt_trichotomy p 0 with negative | rfl | positive
  · rcases lt_or_ge q 0 with below | above
    · have turned : roundTo precision least (-q) ≤ roundTo precision least (-p) :=
        roundTo_le_of_pos digits (neg_pos.mpr below) (neg_le_neg less)
      rw [roundTo_neg, roundTo_neg] at turned
      exact neg_le_neg_iff.mp turned
    · have turned : 0 ≤ roundTo precision least (-p) := roundTo_nonneg (neg_pos.mpr negative).le
      have sign : 0 ≤ roundTo precision least q := roundTo_nonneg above
      rw [roundTo_neg] at turned
      linarith
  · rw [roundTo_zero]
    exact roundTo_nonneg less
  · exact roundTo_le_of_pos digits positive less

end Grid

/-! ### The two formats -/

theorem round64_mono : Monotone round64 :=
  roundTo_mono (by norm_num)

theorem round32_mono : Monotone round32 :=
  roundTo_mono (by norm_num)

theorem round64_int {m : ℤ} (digits : |m| < 2 ^ 53) : round64 m = m :=
  roundTo_int digits (by norm_num)

theorem round32_int {m : ℤ} (digits : |m| < 2 ^ 24) : round32 m = m :=
  roundTo_int digits (by norm_num)

theorem round64_within {q bound : ℚ} (size : |q| ≤ bound) (low : 1 / 2 ^ 200 ≤ bound) :
    |round64 q - q| ≤ bound / 2 ^ 53 := by
  refine roundTo_within size (le_trans ?_ (div_le_div_of_nonneg_right low (by positivity)))
  have tiny : (2 : ℚ) ^ (-1074 : ℤ) ≤ (2 : ℚ) ^ (-253 : ℤ) := zpow_le_zpow_right₀ (by norm_num) (by norm_num)
  generalize (2 : ℚ) ^ (-1074 : ℤ) = last at tiny
  norm_num at tiny ⊢
  linarith

theorem round32_within {q bound : ℚ} (size : |q| ≤ bound) (low : 1 / 2 ^ 100 ≤ bound) :
    |round32 q - q| ≤ bound / 2 ^ 24 := by
  refine roundTo_within size (le_trans ?_ (div_le_div_of_nonneg_right low (by positivity)))
  norm_num

end OscmixDesk
