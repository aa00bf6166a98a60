/-
**Levels as a dump writes them.**

A dump writes a level to a tenth of a decibel. What it writes is within a twentieth of what was reported, up to
the rounding of floats (`round1_near`), also through the compensation of an unlinked pair
(`unlinkedLevel_splitLevel`); and a level on the grid comes back from any report that is nearer to it than to
the next one (`round1_of_near`, `splitLevel_of_near`).
-/

import OscmixDesk.Foundation.Nearest
import OscmixDesk.Model.Dump

namespace OscmixDesk.Dump

/-- What a float is off by at most, for the numbers levels are computed with. -/
def slack : ℚ := 1 / 2 ^ 46

theorem round64_slack {q : ℚ} (size : |q| ≤ 128) : |round64 q - q| ≤ slack := by
  have near := round64_within size (by norm_num)
  unfold slack
  norm_num at near ⊢
  exact near

/-- A tenth is written as the float nearest to it. -/
def tenths (k : ℤ) : ℚ :=
  round64 ((k : ℚ) / 10)

theorem round1_eq (value : ℚ) : round1 value = tenths (roundHalfEven (value * 10)) := rfl

theorem tenths_near {k : ℤ} (size : |k| ≤ 1200) : |tenths k - k / 10| ≤ slack := by
  refine round64_slack ?_
  have size : |(k : ℚ)| ≤ 1200 := by exact_mod_cast size
  rw [abs_div, abs_of_pos (by norm_num : (0 : ℚ) < 10)]
  linarith

theorem tenths_mono {i k : ℤ} (less : i ≤ k) : tenths i ≤ tenths k :=
  round64_mono (div_le_div_of_nonneg_right (by exact_mod_cast less) (by norm_num))

/-- Of the grid, the bounds of a level. -/
@[simp] theorem tenths_floor : tenths (-650) = levelMin := by
  have exact := round64_int (m := -65) (by norm_num)
  unfold tenths levelMin
  norm_num at exact ⊢
  exact exact

@[simp] theorem tenths_zero : tenths 0 = 0 := by
  have exact := round64_int (m := 0) (by norm_num)
  unfold tenths
  norm_num at exact ⊢
  exact exact

@[simp] theorem tenths_top : tenths 60 = levelMax := by
  have exact := round64_int (m := 6) (by norm_num)
  unfold tenths levelMax
  norm_num at exact ⊢
  exact exact

theorem tenths_le_iff {i k : ℤ} (small : |i| ≤ 1200) (large : |k| ≤ 1200) : tenths i ≤ tenths k ↔ i ≤ k := by
  refine ⟨fun less => ?_, fun less => tenths_mono less⟩
  have low := abs_le.mp (tenths_near small)
  have high := abs_le.mp (tenths_near large)
  unfold slack at low high
  have below : (i : ℚ) < k + 1 := by linarith
  have below : i < k + 1 := by exact_mod_cast below
  omega

/-- A level as written is within a twentieth of what was reported. -/
theorem round1_near {value : ℚ} (size : |value| ≤ 100) : |round1 value - value| ≤ 1 / 20 + slack := by
  have whole := abs_le.mp (roundHalfEven_error (value * 10))
  have bounds := abs_le.mp size
  have tenth : |(roundHalfEven (value * 10) : ℚ) / 10| ≤ 128 := by
    rw [abs_le]
    constructor <;> linarith
  have near := abs_le.mp (round64_slack tenth)
  unfold round1
  rw [abs_le]
  constructor <;> linarith

/-- A level on the grid comes back from what is nearer to it than to the next. -/
theorem round1_of_near {value : ℚ} {k : ℤ} (size : |k| ≤ 1200) (near : |value - tenths k| ≤ 1 / 25 + 3 * slack) :
    round1 value = tenths k := by
  have grid := abs_le.mp (tenths_near size)
  have near := abs_le.mp near
  rw [round1_eq]
  congr 1
  refine roundHalfEven_near ?_
  unfold slack at grid near
  rw [abs_lt]
  constructor <;> linarith

/-! ### Unlinked pairs -/

theorem unlinkedGainOffset_bounds : 6 < unlinkedGainOffset ∧ unlinkedGainOffset < 7 := by
  unfold unlinkedGainOffset
  norm_num

theorem unlinkedLevel_near {level : ℚ} (audible : levelMin < level) (quiet : level ≤ 0) :
    |unlinkedLevel level - (level + unlinkedGainOffset)| ≤ slack := by
  have offset := unlinkedGainOffset_bounds
  unfold levelMin at audible
  unfold unlinkedLevel levelMin
  rw [if_neg (not_le.mpr audible), min_eq_left quiet]
  refine round64_slack ?_
  rw [abs_le]
  constructor <;> linarith

/-- The level an unlinked pair was asked for is within a twentieth of what its report says. -/
theorem splitLevel_near {value : ℚ} (size : |value| ≤ 90) :
    |splitLevel value - (value - unlinkedGainOffset)| ≤ 1 / 20 + 2 * slack := by
  have offset := unlinkedGainOffset_bounds
  have bounds := abs_le.mp size
  have first : |round64 (value - unlinkedGainOffset) - (value - unlinkedGainOffset)| ≤ slack := by
    refine round64_slack ?_
    rw [abs_le]
    constructor <;> linarith
  have first := abs_le.mp first
  have second : |splitLevel value - round64 (value - unlinkedGainOffset)| ≤ 1 / 20 + slack := by
    refine round1_near ?_
    unfold slack at first
    rw [abs_le]
    constructor <;> linarith
  have second := abs_le.mp second
  rw [abs_le]
  constructor <;> linarith

/-- What an unlinked route writes is within a twentieth of what was reported. -/
theorem unlinkedLevel_splitLevel {value : ℚ} (size : |value| ≤ 90) (audible : levelMin < splitLevel value)
    (quiet : splitLevel value ≤ 0) : |unlinkedLevel (splitLevel value) - value| ≤ 1 / 20 + 3 * slack := by
  have first := abs_le.mp (splitLevel_near size)
  have second := abs_le.mp (unlinkedLevel_near audible quiet)
  rw [abs_le]
  constructor <;> linarith

/-- The level of an unlinked route on the grid comes back from what is near to what it writes. -/
theorem splitLevel_of_near {value : ℚ} {k : ℤ} (audible : -650 < k) (quiet : k ≤ 0)
    (near : |value - unlinkedLevel (tenths k)| ≤ 1 / 25) : splitLevel value = tenths k := by
  have size : |k| ≤ 1200 := abs_le.mpr ⟨by omega, by omega⟩
  have above : levelMin < tenths k := by
    rw [← tenths_floor]
    exact not_le.mp fun low => absurd ((tenths_le_iff size (by norm_num)).mp low) (not_le.mpr audible)
  have below : tenths k ≤ 0 := by
    rw [← tenths_zero]
    exact tenths_mono quiet
  have offset := unlinkedGainOffset_bounds
  have first := abs_le.mp (unlinkedLevel_near above below)
  have near := abs_le.mp near
  have rounded : |round64 (value - unlinkedGainOffset) - (value - unlinkedGainOffset)| ≤ slack := by
    refine round64_slack ?_
    unfold levelMin at above
    unfold slack at first
    rw [abs_le]
    constructor <;> linarith
  have rounded := abs_le.mp rounded
  unfold splitLevel
  refine round1_of_near size ?_
  rw [abs_le]
  constructor <;> linarith

/-- Two halves that are reported alike are within a fifth of a thousandth of each other. -/
theorem halves_near {first second : ℚ} (size : |first - second| ≤ 128)
    (alike : |round64 (first - second)| < literal 1 4) : |first - second| ≤ 1 / 5000 := by
  have constant : literal 1 4 ≤ 1 / 9999 := by decide +kernel
  have near := abs_le.mp (round64_slack size)
  have alike := abs_lt.mp (alike.trans_le constant)
  unfold slack at near
  rw [abs_le]
  constructor <;> linarith

end OscmixDesk.Dump
