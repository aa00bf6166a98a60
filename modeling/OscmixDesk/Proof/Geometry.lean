/-
**Stereo mix reconstruction inverts the mix.**

The stronger row of a level's matrix is not scaled by the balance, so its sum is the volume; the other row's sum is
the balance of it (`left_sum`, `right_sum`), and the diagonal's share of the stronger row is the width. Neither sum
is divided by where it is zero, as the stronger row of a matrix that is not zero is positive.
-/

import Mathlib.Tactic.FieldSimp
import Mathlib.Tactic.Linarith
import Mathlib.Tactic.Ring
import OscmixDesk.Model.Stereo
import OscmixDesk.Proof.Edits

namespace OscmixDesk.Matrix

/-! ### Rounding -/

/-- An integer is its own rounding. -/
theorem lroundf_intCast (n : ℤ) : lroundf n = n := by
  unfold lroundf
  split_ifs
  · rw [Int.floor_eq_iff]
    constructor <;> linarith
  · rw [Int.ceil_eq_iff]
    constructor <;> linarith

/-- Rounding stays between integers. -/
theorem lroundf_mem {q : ℚ} {low high : ℤ} (above : (low : ℚ) ≤ q) (below : q ≤ high) :
    low ≤ lroundf q ∧ lroundf q ≤ high := by
  unfold lroundf
  split_ifs
  · refine ⟨Int.le_floor.mpr (by linarith), ?_⟩
    rw [← Int.lt_add_one_iff, Int.floor_lt]
    push_cast
    linarith
  · refine ⟨?_, Int.ceil_le.mpr (by linarith)⟩
    rw [← Int.sub_one_lt_iff, Int.lt_ceil]
    push_cast
    linarith

theorem quotient_pos {a b : ℚ} (positive : 0 < b) : quotient a b = some (a / b) :=
  if_neg positive.ne'

/-! ### The rows of a matrix -/

section Rows

variable (l : Level ℚ)

/-- The left row's sum, as its balance leaves it. -/
theorem left_sum : (expectedMatrix l).ll + (expectedMatrix l).rl
    = if 0 < l.pan then l.vol * (1 - l.pan / 100) else l.vol := by
  unfold expectedMatrix
  dsimp only
  split_ifs <;> ring

theorem right_sum : (expectedMatrix l).lr + (expectedMatrix l).rr
    = if l.pan < 0 then l.vol * (1 + l.pan / 100) else l.vol := by
  unfold expectedMatrix
  dsimp only
  split_ifs <;> ring

end Rows

/-! ### Back to the level -/

/-- A level that plays is read back as it is. -/
theorem calclinked_expectedMatrix {l : Level ℚ} (plays : 0 < l.vol) :
    calclinked (expectedMatrix l) = some l := by
  have left := left_sum l
  have right := right_sum l
  unfold calclinked
  dsimp only
  rw [left, right]
  by_cases toRight : 0 < l.pan
  · have notLeft : ¬ l.pan < 0 := not_lt.mpr toRight.le
    have positive : (0 : ℚ) < l.pan := by exact_mod_cast toRight
    have less : l.vol * (1 - l.pan / 100) < l.vol := by nlinarith
    rw [if_pos toRight, if_neg notLeft, if_neg fun zero => plays.ne' zero.2, if_pos less, quotient_pos plays,
      quotient_pos plays]
    have pan : (100 : ℚ) * (1 - l.vol * (1 - l.pan / 100) / l.vol) = l.pan := by
      field_simp
      ring
    have width : (100 : ℚ) * (2 * (expectedMatrix l).rr / l.vol - 1) = l.width := by
      unfold expectedMatrix
      dsimp only
      rw [if_neg notLeft]
      field_simp
      ring
    show some (Level.mk l.vol (lroundf (100 * (1 - l.vol * (1 - l.pan / 100) / l.vol)))
      (lroundf (100 * (2 * (expectedMatrix l).rr / l.vol - 1)))) = some l
    rw [pan, width, lroundf_intCast, lroundf_intCast]
  · have notMore : ¬ l.vol < if l.pan < 0 then l.vol * (1 + l.pan / 100) else l.vol := by
      split_ifs with toLeft
      · have negative : (l.pan : ℚ) < 0 := by exact_mod_cast toLeft
        nlinarith
      · exact lt_irrefl _
    rw [if_neg toRight, if_neg fun zero => plays.ne' zero.1, if_neg notMore, quotient_pos plays, quotient_pos plays]
    have pan : (100 : ℚ) * ((if l.pan < 0 then l.vol * (1 + l.pan / 100) else l.vol) / l.vol - 1) = l.pan := by
      split_ifs with toLeft
      · field_simp
        ring
      · have same : l.pan = 0 := le_antisymm (not_lt.mp toRight) (not_lt.mp toLeft)
        rw [same, div_self plays.ne']
        norm_num
    have width : (100 : ℚ) * (2 * (expectedMatrix l).ll / l.vol - 1) = l.width := by
      unfold expectedMatrix
      dsimp only
      rw [if_neg toRight]
      field_simp
      ring
    show some (Level.mk l.vol
      (lroundf (100 * ((if l.pan < 0 then l.vol * (1 + l.pan / 100) else l.vol) / l.vol - 1)))
      (lroundf (100 * (2 * (expectedMatrix l).ll / l.vol - 1)))) = some l
    rw [pan, width, lroundf_intCast, lroundf_intCast]

/-! ### Every matrix -/

/-- A level as the code may send it. -/
structure Level.InRange (l : Level ℚ) : Prop where
  vol : 0 ≤ l.vol
  pan : -100 ≤ l.pan ∧ l.pan ≤ 100
  width : -100 ≤ l.width ∧ l.width ≤ 100

/-- Coefficients as a device may report them. -/
structure Coefficients.Nonnegative (c : Coefficients ℚ) : Prop where
  ll : 0 ≤ c.ll
  lr : 0 ≤ c.lr
  rl : 0 ≤ c.rl
  rr : 0 ≤ c.rr

/-- A part of a sum, doubled and less one, is a width. -/
theorem width_mem {part other : ℚ} (here : 0 ≤ part) (there : 0 ≤ other) (positive : 0 < part + other) :
    -100 ≤ lroundf (100 * (2 * part / (part + other) - 1))
      ∧ lroundf (100 * (2 * part / (part + other) - 1)) ≤ 100 := by
  have low : 0 ≤ 2 * part / (part + other) := by positivity
  have high : 2 * part / (part + other) ≤ 2 := by
    rw [div_le_iff₀ positive]
    linarith
  refine lroundf_mem ?_ ?_
  · push_cast
    linarith
  · push_cast
    linarith

/-- The weaker row over the stronger one. -/
theorem balance_mem {weaker stronger : ℚ} (here : 0 ≤ weaker) (positive : 0 < stronger) (less : weaker ≤ stronger) :
    0 ≤ weaker / stronger ∧ weaker / stronger ≤ 1 :=
  ⟨div_nonneg here positive.le, (div_le_one positive).mpr less⟩

/-- Silence is read as the centre, at full width. -/
theorem calclinked_silent {c : Coefficients ℚ} (silent : c.ll + c.rl = 0 ∧ c.lr + c.rr = 0) :
    calclinked c = some ⟨0, 0, 100⟩ := by
  unfold calclinked
  dsimp only
  rw [if_pos silent]
  show some (Level.mk 0 0 (lroundf (100 * 1))) = some ⟨0, 0, 100⟩
  rw [mul_one]
  exact congrArg (fun width => some (Level.mk 0 0 width)) (lroundf_intCast 100)

/-- No coefficients make it divide by zero, and what it reads off is a level. -/
theorem calclinked_inRange {c : Coefficients ℚ} (nonneg : c.Nonnegative) :
    ∃ l, calclinked c = some l ∧ l.InRange := by
  have left : 0 ≤ c.ll + c.rl := add_nonneg nonneg.ll nonneg.rl
  have right : 0 ≤ c.lr + c.rr := add_nonneg nonneg.lr nonneg.rr
  by_cases silent : c.ll + c.rl = 0 ∧ c.lr + c.rr = 0
  · exact ⟨_, calclinked_silent silent, le_refl 0, by decide, by decide⟩
  · unfold calclinked
    dsimp only
    rw [if_neg silent]
    by_cases toRight : c.ll + c.rl < c.lr + c.rr
    · have positive : 0 < c.lr + c.rr := lt_of_le_of_lt left toRight
      obtain ⟨low, high⟩ := balance_mem left positive toRight.le
      rw [if_pos toRight, quotient_pos positive, quotient_pos positive]
      refine ⟨_, rfl, right, ?_, ?_⟩
      · refine lroundf_mem ?_ ?_
        · push_cast
          linarith
        · push_cast
          linarith
      · have width := width_mem nonneg.rr nonneg.lr (by rw [add_comm]; exact positive)
        rwa [add_comm c.rr c.lr] at width
    · have positive : 0 < c.ll + c.rl := by
        refine lt_of_le_of_ne left fun zero => silent ⟨zero.symm, ?_⟩
        rw [← zero] at toRight
        exact le_antisymm (not_lt.mp toRight) right
      obtain ⟨low, high⟩ := balance_mem right positive (not_lt.mp toRight)
      rw [if_neg toRight, quotient_pos positive, quotient_pos positive]
      refine ⟨_, rfl, left, ?_, width_mem nonneg.ll nonneg.rl positive⟩
      refine lroundf_mem ?_ ?_
      · push_cast
        linarith
      · push_cast
        linarith

/-- Neither does one channel. -/
theorem calcpanned_defined (root balance : ℚ → ℚ) (width : ℤ) (c : Coefficients ℚ) :
    ∃ l, calcpanned root balance width c = some l := by
  unfold calcpanned
  dsimp only
  by_cases silent : root (c.ll * c.ll + c.lr * c.lr) = 0
  · rw [if_pos silent]
    exact ⟨_, rfl⟩
  · rw [if_neg silent]
    unfold quotient
    rw [if_neg silent]
    exact ⟨_, rfl⟩

/-! ### An edit, read back -/

/-- The cache of a linked pair holds the coefficients that were committed. -/
theorem linked_commit (σ : State ℚ) (out inp : ℕ) (c : Coefficients ℚ) :
    (σ.commit out inp true true c).linked out inp = c := by
  unfold State.commit State.linked State.store
  obtain ⟨ll, lr, rl, rr⟩ := c
  simp

/-- What an edit of a linked pair to a linked pair left in the cache is read back as its level. -/
theorem planlevel_readBack {D : Device} {A : Arithmetic ℚ} {σ τ : State ℚ} {out inp : ℕ} {l : Level ℚ}
    {writes pending : Packet} (planned : planlevel D A.exactly σ out inp true l writes = (0, τ, pending))
    (paired : (σ.address out inp true).instereo = true ∧ (σ.address out inp true).outstereo = true)
    (plays : 0 < l.vol) :
    calclinked (τ.linked (σ.address out inp true).out (σ.address out inp true).inp) = some l := by
  rw [planlevel_eq] at planned
  generalize σ.address out inp true = a at planned paired
  dsimp only at planned
  rw [paired.1, paired.2] at planned
  generalize (if σ.mute a.inp then some writes
    else planwords D A.exactly writes a.out a.inp true true (coefficients A.exactly true true l)) = words at planned
  split_ifs at planned
  · cases planned
  · cases planned
  · cases planned
  · cases words with
    | none => cases planned
    | some gained =>
      obtain rfl := (Prod.mk.inj (Prod.mk.inj planned).2).1
      rw [linked_commit]
      exact calclinked_expectedMatrix plays

/-- **Stereo mix reconstruction inverts the mix**: a level that plays is read back from its coefficients as it is;
and any coefficients are read as a level, without a division by zero, and as the centre at full width where they
are zero. -/
theorem reconstruction_exact (A : Arithmetic ℚ) :
    (∀ (v : ℚ) (p w : ℤ), 0 < v → -100 ≤ p ∧ p ≤ 100 → -100 ≤ w ∧ w ≤ 100 →
      calclinked (coefficients A.exactly true true ⟨v, p, w⟩) = some ⟨v, p, w⟩)
    ∧ ∀ ll lr rl rr : ℚ, 0 ≤ ll → 0 ≤ lr → 0 ≤ rl → 0 ≤ rr →
      ∃ l, calclinked ⟨ll, lr, rl, rr⟩ = some l
        ∧ 0 ≤ l.vol ∧ (-100 ≤ l.pan ∧ l.pan ≤ 100) ∧ (-100 ≤ l.width ∧ l.width ≤ 100)
        ∧ (ll = 0 → lr = 0 → rl = 0 → rr = 0 → l = ⟨0, 0, 100⟩) := by
  refine ⟨fun v p w plays _ _ => calclinked_expectedMatrix plays, fun ll lr rl rr a b c d => ?_⟩
  obtain ⟨l, read, inRange⟩ := calclinked_inRange (c := ⟨ll, lr, rl, rr⟩) ⟨a, b, c, d⟩
  refine ⟨l, read, inRange.vol, inRange.pan, inRange.width, ?_⟩
  rintro rfl rfl rfl rfl
  exact Option.some_inj.mp (read.symm.trans (calclinked_silent ⟨add_zero 0, add_zero 0⟩))

/-- Exact numbers, with levels in the middle for one channel. -/
def rational : Arithmetic ℚ where
  zero := 0
  isfinite _ := true
  negative level := level < 0
  aboveTwo level := 2 < level
  scaled level := lroundf (level * 0x8000)
  tenths _ := 0
  wide := expectedMatrix
  panned l := (l.vol, l.vol)
  folded l := (l.vol / 2, l.vol / 2)
  calclevel _ _ _ _ := ⟨0, 0, 100⟩
  scaled_zero := by
    rw [zero_mul]
    exact lroundf_intCast 0
  scaled_range level _ low high := by
    simp only [decide_eq_false_iff_not, not_lt] at low high
    refine lroundf_mem ?_ ?_
    · push_cast
      linarith
    · push_cast
      linarith

/-- Three quarters to the left, with the channels crossed by a fifth; and a matrix of one cell. -/
theorem reconstruction_quarter :
    calclinked (coefficients rational.exactly true true ⟨1 / 2, -75, 60⟩) = some ⟨1 / 2, -75, 60⟩
      ∧ ∃ l, calclinked ⟨0, 0, 0, 1⟩ = some l ∧ 0 ≤ l.vol :=
  ⟨(reconstruction_exact rational).1 (1 / 2) (-75) 60 (by norm_num) (by decide) (by decide),
    ((reconstruction_exact rational).2 0 0 0 1 (le_refl 0) (le_refl 0) (le_refl 0) (by norm_num)).imp
      fun _ holds => ⟨holds.1, holds.2.1⟩⟩

end OscmixDesk.Matrix
