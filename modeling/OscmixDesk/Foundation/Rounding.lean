/-
**Binary floating-point numbers as exact rationals with a rounding.**

A finite binary number is the rational it denotes; an operation is the exact operation followed by
`roundTo`, the rounding to the nearest multiple of the quantum of its binade, ties to even. Two
formats are used: `binary64`, in which Python computes, and `binary32`, which OSC carries.

* `roundTo precision least q` — the nearest number with `precision` significant bits and no digit
  below `2 ^ least`.
* `PyFloat` — a Python `float`: a finite number, an infinity or a NaN.
-/

import Mathlib.Data.Rat.Floor
import Mathlib.Data.Int.Log

namespace OscmixDesk

/-- The nearest integer, a tie going to the even one. -/
def roundHalfEven (q : ℚ) : ℤ :=
  if q - ⌊q⌋ < 1 / 2 then ⌊q⌋
  else if 1 / 2 < q - ⌊q⌋ then ⌊q⌋ + 1
  else if ⌊q⌋ % 2 = 0 then ⌊q⌋
  else ⌊q⌋ + 1

/-- The exponent of the last digit kept of `q`. -/
def quantum (precision : ℕ) (least : ℤ) (q : ℚ) : ℤ :=
  max (Int.log 2 |q| + 1 - precision) least

/-- The nearest number with `precision` significant bits and no digit below `2 ^ least`. -/
def roundTo (precision : ℕ) (least : ℤ) (q : ℚ) : ℚ :=
  roundHalfEven (q / (2 : ℚ) ^ quantum precision least q) * (2 : ℚ) ^ quantum precision least q

/-- Rounding to binary64, its range left unbounded. -/
def round64 (q : ℚ) : ℚ :=
  roundTo 53 (-1074) q

/-- Rounding to binary32, its range left unbounded. -/
def round32 (q : ℚ) : ℚ :=
  roundTo 24 (-149) q

/-- A Python `float`. The two zeros compare equal and are one value here. -/
inductive PyFloat
  | finite (value : ℚ)
  | infinite (negative : Bool)
  | nan
  deriving DecidableEq, Repr

/-- The binary64 nearest to a rational, an infinity past its range. -/
def binary64 (q : ℚ) : PyFloat :=
  if (2 : ℚ) ^ (1024 : ℕ) ≤ |round64 q| then .infinite (decide (q < 0)) else .finite (round64 q)

end OscmixDesk
