/-
**Text primitives of the language the program is written in.**

A configuration reaches the program as strings, and what it accepts is decided by five
primitives of Python's `str`, `int` and `float`: stripping, splitting, the digits a number may
be spelled with, and the two conversions. They are written on `List Char`, structurally, so that
a concrete file can be evaluated.

* `strip`, `afterColon` — `str.strip()` and `s.split(":", 1)[1]`; `List.splitOn` is `str.split(c)`.
* `lower` — `str.lower()`, as far as a comparison with an ASCII word can tell.
* `readInt` — `int(s)`: surrounding blanks, a sign, decimal digits of any script, single
  underscores between digits. `01`, `+1` and ` 1 ` are all `1`.
* `readFloat` — `float(s)`, rounded to the nearest binary64.
-/

import OscmixDesk.Foundation.Rounding

namespace OscmixDesk.Text

/-- The code points `str.isspace` accepts. -/
def isSpace (c : Char) : Bool :=
  let n := c.toNat
  (9 ≤ n && n ≤ 13) || (28 ≤ n && n ≤ 32) || n == 0x85 || n == 0xa0 || n == 0x1680
    || (0x2000 ≤ n && n ≤ 0x200a) || n == 0x2028 || n == 0x2029 || n == 0x202f || n == 0x205f
    || n == 0x3000

/-- Python's `str.strip()`. -/
def strip (text : List Char) : List Char :=
  ((text.dropWhile isSpace).reverse.dropWhile isSpace).reverse

/-- What follows the first colon: `text.split(":", 1)[1]`. -/
def afterColon (text : List Char) : List Char :=
  (text.dropWhile (· ≠ ':')).tail

/-- Lower case. Outside ASCII only the Kelvin sign folds to one ASCII letter, a `k`, and no word
the program compares a lowered text with has one, so folding ASCII decides the comparisons. -/
def lower (text : List Char) : List Char :=
  text.map Char.toLower

/-- The zeros of the decimal digit ranges of Unicode; each range is ten code points. -/
def decimalZeros : List ℕ :=
  [0x30, 0x660, 0x6f0, 0x7c0, 0x966, 0x9e6, 0xa66, 0xae6, 0xb66, 0xbe6, 0xc66, 0xce6, 0xd66,
    0xde6, 0xe50, 0xed0, 0xf20, 0x1040, 0x1090, 0x17e0, 0x1810, 0x1946, 0x19d0, 0x1a80, 0x1a90,
    0x1b50, 0x1bb0, 0x1c40, 0x1c50, 0xa620, 0xa8d0, 0xa900, 0xa9d0, 0xa9f0, 0xaa50, 0xabf0,
    0xff10, 0x104a0, 0x10d30, 0x11066, 0x110f0, 0x11136, 0x111d0, 0x112f0, 0x11450, 0x114d0,
    0x11650, 0x116c0, 0x11730, 0x118e0, 0x11950, 0x11c50, 0x11d50, 0x11da0, 0x16a60, 0x16ac0,
    0x16b50, 0x1d7ce, 0x1d7d8, 0x1d7e2, 0x1d7ec, 0x1d7f6, 0x1e140, 0x1e2f0, 0x1e950, 0x1fbf0]

/-- The value of a decimal digit of any script. -/
def digitValue (c : Char) : Option ℕ :=
  (decimalZeros.find? fun start => start ≤ c.toNat && c.toNat < start + 10).map (c.toNat - ·)

/-- The digits that are no decimal ones (superscripts, circled digits): `str.isdigit` accepts
them and `int` does not. -/
def otherDigits : List (ℕ × ℕ) :=
  [(0xb2, 0xb3), (0xb9, 0xb9), (0x1369, 0x1371), (0x19da, 0x19da), (0x2070, 0x2070),
    (0x2074, 0x2079), (0x2080, 0x2089), (0x2460, 0x2468), (0x2474, 0x247c), (0x2488, 0x2490),
    (0x24ea, 0x24ea), (0x24f5, 0x24fd), (0x24ff, 0x24ff), (0x2776, 0x277e), (0x2780, 0x2788),
    (0x278a, 0x2792), (0x10a40, 0x10a43), (0x10e60, 0x10e68), (0x11052, 0x1105a),
    (0x1f100, 0x1f10a)]

/-- One character of `str.isdigit()`. -/
def isDigit (c : Char) : Bool :=
  (digitValue c).isSome || otherDigits.any fun range => range.1 ≤ c.toNat && c.toNat ≤ range.2

/-- Python's `str.isdigit()`: some characters, all of them digits. -/
def allDigits (text : List Char) : Bool :=
  !text.isEmpty && text.all isDigit

/-- Decimal digits, with single underscores between them. -/
def digitRun : List Char → Option (List ℕ)
  | [] => none
  | [c] => (digitValue c).map fun value => [value]
  | c :: '_' :: rest => do
      let value ← digitValue c
      let values ← digitRun rest
      return value :: values
  | c :: rest => do
      let value ← digitValue c
      let values ← digitRun rest
      return value :: values

/-- A digit list, most significant first, as a number. -/
def ofDigits (digits : List ℕ) : ℕ :=
  digits.foldl (fun number digit => 10 * number + digit) 0

/-- A sign and what follows it. -/
def signed : List Char → Bool × List Char
  | '-' :: rest => (true, rest)
  | '+' :: rest => (false, rest)
  | rest => (false, rest)

/-- Python's `int(raw)`; `none` is its `ValueError`. -/
def readInt (raw : List Char) : Option ℤ :=
  let (negative, digits) := signed (strip raw)
  (digitRun digits).map fun run =>
    if negative then -(ofDigits run : ℤ) else (ofDigits run : ℤ)

/-- The digits of one side of a decimal point, which may be empty. -/
def optionalRun (text : List Char) : Option (List ℕ) :=
  if text.isEmpty then some [] else digitRun text

/-- The mantissa of a decimal literal: its digits, and how many of them are fractional. -/
def mantissa (text : List Char) : Option (List ℕ × ℕ) :=
  match text.splitOn '.' with
  | [whole] => (digitRun whole).map fun run => (run, 0)
  | [whole, fraction] => do
      let high ← optionalRun whole
      let low ← optionalRun fraction
      if high.isEmpty && low.isEmpty then none else return (high ++ low, low.length)
  | _ => none

/-- The exponent of a decimal literal, after its `e`. -/
def exponent (text : List Char) : Option ℤ :=
  let (negative, digits) := signed text
  (digitRun digits).map fun run =>
    if negative then -(ofDigits run : ℤ) else (ofDigits run : ℤ)

/-- An unsigned decimal literal as the number it denotes. -/
def decimal (text : List Char) : Option ℚ :=
  match (text.map fun c => if c = 'E' then 'e' else c).splitOn 'e' with
  | [digits] => (mantissa digits).map fun m => (ofDigits m.1 : ℚ) / (10 : ℚ) ^ m.2
  | [digits, power] => do
      let m ← mantissa digits
      let shift ← exponent power
      return (ofDigits m.1 : ℚ) / (10 : ℚ) ^ m.2 * (10 : ℚ) ^ shift
  | _ => none

/-- Python's `float(raw)`; `none` is its `ValueError`. -/
def readFloat (raw : List Char) : Option PyFloat :=
  let (negative, body) := signed (strip raw)
  if lower body = "nan".toList then some .nan
  else if lower body = "inf".toList || lower body = "infinity".toList then
    some (.infinite negative)
  else (decimal body).map fun value => binary64 (if negative then -value else value)

end OscmixDesk.Text
