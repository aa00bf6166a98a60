/-
**Numeric contracts of the backend** (`numeric.py`).

An OSC float is a representation, not a unit. A scalar setting with a fixed-point scale is divided
in binary32 and rounded to a signed 16-bit register; an input gain is multiplied and truncated.
`expectedReport` is what the backend reports of the register it holds, and the two comparisons
(`equalFloat`, and `matches` above it) are made against that report. Python's arithmetic is binary64,
so every operation is an exact one followed by `binary64` or `round64`.

* `rawValue` — the register a value ends up in.
* `numberValue` — a quantity inside the domain of its register, as a file or a report gives it.
* `equalFloat` — whether a reported float satisfies a desired one.
-/

import OscmixDesk.Model.Devices

namespace OscmixDesk

/-- An OSC argument. -/
inductive Value
  | int (number : ℤ)
  | float (number : PyFloat)
  | str (text : String)
  deriving DecidableEq, Repr

abbrev Args := List Value

/-- A finite float argument. -/
abbrev Value.real (number : ℚ) : Value :=
  .float (.finite number)

/-- What the numeric functions raise: the first is a `TypeError`, the others `ValueError`s. -/
inductive NumericProblem
  | notNumeric
  | notFinite
  | notIntegral
  | outsideFloat32
  | outsideRegister
  | outOfRange (lo hi : Option ℚ) (unit : String)
  | invalidBoolean
  | unknownEnum
  deriving DecidableEq, Repr

/-! ### Representations -/

/-- A real numeric argument, never a coerced OSC string or NaN. -/
def finite : Value → Except NumericProblem ℚ
  | .int number =>
      match binary64 number with
      | .finite value => .ok value
      | _ => .error .notFinite
  | .float (.finite value) => .ok value
  | .float _ => .error .notFinite
  | .str _ => .error .notNumeric

/-- An exact OSC integer; no truncation of malformed float reports. -/
def integer (value : Value) : Except NumericProblem ℤ := do
  let number ← finite value
  if number.den = 1 ∧ -(2 ^ 31) ≤ number ∧ number < 2 ^ 31 then return number.num
  else throw .notIntegral

/-- An encodable finite OSC float, in its wire precision. -/
def float32 (value : Value) : Except NumericProblem ℚ := do
  let number ← finite value
  if |round32 number| < 2 ^ 128 then return round32 number else throw .outsideFloat32

/-- Python's `math.trunc`. -/
def truncate (number : ℚ) : ℤ :=
  if 0 ≤ number then ⌊number⌋ else ⌈number⌉

/-- C's `lroundf`: ties away from zero. -/
def lround (number : ℚ) : ℤ :=
  if 0 ≤ number then ⌊round64 (number + 1 / 2)⌋ else ⌈round64 (number - 1 / 2)⌉

/-- The register's 16 bits, before the check that the value fits them. -/
def unboundedRaw (value : Value) (register : Register) : Except NumericProblem ℤ :=
  match register.scale with
  | none => integer value
  | some scale => do
      let wire ← float32 value
      if register.truncates then return truncate (← float32 (.float (binary64 (wire * 10))))
      else return lround (← float32 (.float (binary64 (wire / (← float32 (.real scale))))))

/-- The signed scalar register after the backend's numeric conversion. -/
def rawValue (value : Value) (register : Register) : Except NumericProblem ℤ := do
  let raw ← unboundedRaw value register
  if -32768 ≤ raw ∧ raw ≤ 32767 then return raw else throw .outsideRegister

/-- The report of a register that holds `raw`. -/
def reportOfRaw (raw : ℤ) (register : Register) : Except NumericProblem ℚ :=
  if register.truncates then float32 (.float (binary64 (raw / 10)))
  else do float32 (.float (binary64 (raw * (← float32 (.real (register.scale.getD 1))))))

/-- The binary32 value `newfixed` or `newinputgain` would report. -/
def expectedReport (value : Value) (register : Register) : Except NumericProblem ℚ := do
  reportOfRaw (← rawValue value register) register

/-! ### Domains -/

/-- Whether the register's tags start with the given one. -/
def Register.startsWith (register : Register) (tag : Char) : Bool :=
  register.tags.toList.head? = some tag

/-- The bound a value is held to. A report may land one step beyond the bound as written. -/
def limitOf (bound : ℚ) (lower reported : Bool) (register : Register) :
    Except NumericProblem ℚ := do
  if reported && register.startsWith 'f' then
    let limit ← float32 (.real bound)
    if register.scale.isSome then
      let encoded ← expectedReport (.real bound) register
      return if lower then min limit encoded else max limit encoded
    else return limit
  else return bound

/-- Refuses a number beyond one bound of its register. -/
def checkBound (bound : Option ℚ) (lower reported : Bool) (register : Register) (number : ℚ) :
    Except NumericProblem Unit :=
  match bound with
  | none => .ok ()
  | some bound => do
      let limit ← limitOf bound lower reported register
      if (if lower then number < limit else limit < number) then
        throw (.outOfRange register.lo register.hi register.unit)

/-- Domain bounds, separately from the wire and backend representation. -/
def numberValue (value : Value) (register : Register) (reported : Bool := false) :
    Except NumericProblem ℚ := do
  let number ← finite value
  if register.startsWith 'i' || register.scale.isSome then
    let _ ← rawValue (.real number) register
  else
    let _ ← float32 (.real number)
  checkBound register.lo true reported register number
  checkBound register.hi false reported register number
  return number

/-- A valid scalar observation; it need not have the desired value. -/
def reportValue (value : Value) (register : Register) : Except NumericProblem ℚ :=
  match register.domain with
  | some .number => numberValue value register true
  | some .bool => do
      let result ← integer value
      if result = 0 ∨ result = 1 then return result else throw .invalidBoolean
  | some .enum => do
      let result ← integer value
      let wire := if register.values.isEmpty then
        (List.range register.choices.length).map Int.ofNat else register.values
      if result ∈ wire then return result else throw .unknownEnum
  | none => do return (← integer value : ℤ)

/-! ### Comparison -/

/-- Python's `math.isclose`. -/
def isClose (a b relative absolute : ℚ) : Bool :=
  a = b || |round64 (a - b)| ≤ |round64 (relative * b)| || |round64 (a - b)| ≤ |round64 (relative * a)|
    || |round64 (a - b)| ≤ absolute

/-- A reported float against a desired one, by the contract of its register. -/
def equalFloat (want got : Value) (register : Option Register) (tolerance : Option ℚ := none) :
    Except NumericProblem Bool := do
  let wanted ← finite want
  match register.filter (·.mixLevel) with
  | some _ =>
      if wanted ≤ levelMin then return got = .float (.infinite true)
      else return |round64 (wanted - (← finite got))| ≤ 1 / 2
  | none =>
      let reported ← finite got
      match register.filter (·.domain = some .number) with
      | some row =>
          let _ ← numberValue want row
          let _ ← numberValue got row true
          match row.scale with
          | some scale =>
              let expected ← expectedReport (.real wanted) row
              return isClose reported expected (literal 2 7) (round64 (scale * literal 1 4))
          | none => equalUnscaled wanted reported
      | none => equalUnscaled wanted reported
where
  /-- Binary32 equality, unless the caller gives a tolerance. -/
  equalUnscaled (wanted reported : ℚ) : Except NumericProblem Bool := do
    match tolerance with
    | some bound => return |round64 (wanted - reported)| ≤ bound
    | none => return (← float32 (.real wanted)) = (← float32 (.real reported))

/-! ### Physical units -/

/-- The room EQ delay, the one value measured in a physical unit: ten milliseconds a unit. -/
def physical (register : Register) : Option (String × ℚ) :=
  if register.template = .channel .output (.nested "roomeq" "delay") then some ("ms", 10) else none

/-- Python's division of a float by a positive number. -/
def PyFloat.dividedBy (number : PyFloat) (divisor : ℚ) : PyFloat :=
  match number with
  | .finite value => binary64 (value / divisor)
  | other => other

/-- The backend value of a text written in the register's measured unit. The outer option is
absence of the unit, the inner one the `ValueError` of a text that is no number. -/
def fromPhysical (text : List Char) (register : Register) : Option (Option PyFloat) :=
  match physical register with
  | none => none
  | some (unit, factor) =>
      let stripped := Text.strip text
      if unit.toList.isSuffixOf stripped then
        some ((Text.readFloat (stripped.take (stripped.length - unit.length))).map
          (·.dividedBy factor))
      else none

end OscmixDesk
