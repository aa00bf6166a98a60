/-
**The level of a linked pair** (`calclevel` and the linked branch of `planlevel` with the patches 0011 and 0013).

A level of a linked input on a linked output is four coefficients, and the backend reads the level back off the
coefficients a device reports. The numbers are exact, and a division says whether it divided by zero.
-/

import Mathlib.Data.Rat.Floor
import OscmixDesk.Model.Matrix

namespace OscmixDesk.Matrix

/-! ### Numbers -/

/-- A quotient; none by zero. -/
def quotient (a b : ℚ) : Option ℚ :=
  if b = 0 then none else some (a / b)

/-- `lroundf`: the nearest integer, ties away from zero. -/
def lroundf (q : ℚ) : ℤ :=
  if 0 ≤ q then ⌊q + 1 / 2⌋ else ⌈q - 1 / 2⌉

/-! ### From a level to its coefficients -/

/-- The matrix of a level (`expected_matrix`, which the tests hold all coefficients of `planlevel` against): the
balance scales one of the rows, and the width divides a row between the diagonal and the cross. -/
def expectedMatrix (l : Level ℚ) : Coefficients ℚ :=
  let left : ℚ := if 0 < l.pan then 1 - l.pan / 100 else 1
  let right : ℚ := if l.pan < 0 then 1 + l.pan / 100 else 1
  let diagonal := l.vol * (100 + l.width) / 200
  let cross := l.vol * (100 - l.width) / 200
  { ll := left * diagonal, rl := left * cross, lr := right * cross, rr := right * diagonal }

/-! ### From coefficients to a level -/

/-- `calclevel` of a linked input on a linked output; none where it divides by zero. -/
def calclinked (c : Coefficients ℚ) : Option (Level ℚ) := do
  let left := c.ll + c.rl
  let right := c.lr + c.rr
  let (vol, pan, w) ←
    if left = 0 ∧ right = 0 then some (0, 0, 1)
    else if left < right then do
      let balance ← quotient left right
      let share ← quotient (2 * c.rr) right
      pure (right, lroundf (100 * (1 - balance)), share - 1)
    else do
      let balance ← quotient right left
      let share ← quotient (2 * c.ll) left
      pure (left, lroundf (100 * (balance - 1)), share - 1)
  return { vol, pan, width := lroundf (100 * w) }

/-- `calclevel` of one channel on a linked output, by `sqrtf` and by the balance of a cosine,
`acosf(x) * 400.f / PI - 100.f`; its width is left as it is. -/
def calcpanned (root balance : ℚ → ℚ) (width : ℤ) (c : Coefficients ℚ) : Option (Level ℚ) := do
  let vol := root (c.ll * c.ll + c.lr * c.lr)
  let pan ← if vol = 0 then some 0 else (quotient c.ll vol).map fun x => lroundf (balance x)
  return { vol, pan, width }

/-! ### The cache -/

/-- The four coefficients of a linked pair, left channels first. -/
def State.linked (σ : State ℚ) (out inp : ℕ) : Coefficients ℚ where
  ll := σ.mix out inp
  lr := σ.mix (out + 1) inp
  rl := σ.mix out (inp + 1)
  rr := σ.mix (out + 1) (inp + 1)

/-- Exact arithmetic on linked pairs; the rest is left as it is. -/
def Arithmetic.exactly (A : Arithmetic ℚ) : Arithmetic ℚ :=
  { A with wide := expectedMatrix }

end OscmixDesk.Matrix
