/-
**OSC messages and bundles as bytes** (`osc.py`).

A message is its address and its type tags as NUL-terminated strings padded to four bytes, and its arguments one
after another: `f` and `i` are four bytes, big-endian, `s` is a string. A bundle is a header, a time tag and sized
elements, each a message or a bundle. A float is its 32-bit pattern, so what `struct` does to it between the wire
and a Python float is left out: the patterns of signalling NaNs become those of quiet ones there, and no other
pattern changes. `encodeOsc` and `decodeOsc` are the codec of one message; `iterOscMessages` unwraps bundles with a
stack of its own, and `decodeDelivery` decodes all of them or none.
-/

import Mathlib.Algebra.Order.Group.Nat
import Mathlib.Algebra.Order.Ring.Int
import Mathlib.Algebra.Ring.Nat
import Mathlib.Data.List.Basic
import Mathlib.Tactic.SplitIfs

namespace OscmixDesk.Osc

abbrev Bytes := List UInt8

/-- An argument: `,i`, `,f` or `,s`. -/
inductive Argument
  | int (number : ℤ)
  | float (pattern : BitVec 32)
  | str (text : String)
  deriving DecidableEq, Repr

/-- One message: address, type tags and arguments. -/
structure Packet where
  path : String
  tags : String
  args : List Argument
  deriving DecidableEq, Repr

/-! ### Encoding -/

/-- What `encode_osc` raises. -/
inductive EncodeProblem
  | notAscii
  | wrongCount
  | unsupportedTag (tag : Char)
  | outsideInt32
  | notConvertible
  deriving DecidableEq, Repr

/-- `float()`, `int()` and `str()` of an argument of another kind. -/
structure Conversions where
  float : Argument → Except EncodeProblem (BitVec 32)
  int : Argument → Except EncodeProblem ℤ
  str : Argument → String

/-- Four bytes, big-endian. -/
def packWord (word : BitVec 32) : Bytes :=
  [UInt8.ofNat (word.toNat / 2 ^ 24), UInt8.ofNat (word.toNat / 2 ^ 16), UInt8.ofNat (word.toNat / 2 ^ 8),
    UInt8.ofNat word.toNat]

/-- `text.encode("ascii")`. -/
def asciiBytes (text : String) : Except EncodeProblem Bytes :=
  if text.toList.all (·.toNat < 128) then .ok (text.toList.map fun c => UInt8.ofNat c.toNat)
  else .error .notAscii

/-- The zeros that bring a length to a multiple of four: `-length % 4`. -/
def padding (length : ℕ) : ℕ :=
  (4 - length % 4) % 4

/-- A string on the wire: ASCII, NUL-terminated, padded to four bytes. -/
def oscString (text : String) : Except EncodeProblem Bytes := do
  let raw := (← asciiBytes text) ++ [0]
  return raw ++ List.replicate (padding raw.length) 0

/-- One argument under its tag. -/
def encodeArgument (conversions : Conversions) (tag : Char) (value : Argument) :
    Except EncodeProblem Bytes :=
  if tag = 'f' then do
    let pattern ← match value with
      | .float pattern => pure pattern
      | other => conversions.float other
    return packWord pattern
  else if tag = 'i' then do
    let number ← match value with
      | .int number => pure number
      | other => conversions.int other
    if -(2 ^ 31) ≤ number ∧ number < 2 ^ 31 then return packWord (BitVec.ofInt 32 number)
    else throw .outsideInt32
  else if tag = 's' then
    oscString (match value with
      | .str text => text
      | other => conversions.str other)
  else throw (.unsupportedTag tag)

/-- The arguments, one after another. -/
def encodeArguments (conversions : Conversions) : List Char → List Argument → Except EncodeProblem Bytes
  | tag :: tags, value :: values => do
      let first ← encodeArgument conversions tag value
      return first ++ (← encodeArguments conversions tags values)
  | _, _ => return []

/-- A single message. -/
def encodeOsc (conversions : Conversions) (packet : Packet) : Except EncodeProblem Bytes := do
  if packet.tags.length ≠ packet.args.length then throw .wrongCount
  let path ← oscString packet.path
  let tags ← oscString ("," ++ packet.tags)
  return path ++ tags ++ (← encodeArguments conversions packet.tags.toList packet.args)

/-! ### Decoding -/

/-- What decoding a delivery raises; each is a `ValueError`. -/
inductive DecodeProblem
  | unterminated
  | notAscii
  | invalidPadding
  | truncatedMessage
  | missingTags
  | unsupportedTag (tag : Char)
  | truncatedArguments
  | trailingData
  | unalignedDelivery
  | truncatedHeader
  | invalidElementSize
  deriving DecidableEq, Repr

/-- The word four bytes hold. -/
def unpackWord : Bytes → Option (BitVec 32)
  | a :: b :: c :: d :: _ =>
      some (BitVec.ofNat 32 (a.toNat * 2 ^ 24 + b.toNat * 2 ^ 16 + c.toNat * 2 ^ 8 + d.toNat))
  | _ => none

/-- `struct.unpack_from` of a word. -/
def unpackFrom (data : Bytes) (offset : ℕ) : Except DecodeProblem (BitVec 32) :=
  match unpackWord (data.drop offset) with
  | some word => .ok word
  | none => .error .truncatedArguments

/-- `data[start:stop]`. -/
def slice (data : Bytes) (start stop : ℕ) : Bytes :=
  (data.drop start).take (stop - start)

/-- A string at an offset, and where it ends with its padding. -/
def decodeString (data : Bytes) (offset : ℕ) : Except DecodeProblem (String × ℕ) := do
  let some length := (data.drop offset).findIdx? (· = 0) | throw .unterminated
  let value := slice data offset (offset + length)
  if value.any (128 ≤ ·.toNat) then throw .notAscii
  let stop := offset + length + 1
  let padded := stop + padding stop
  if data.length < padded ∨ (slice data stop padded).any (· ≠ 0) then throw .invalidPadding
  return (String.ofList (value.map fun byte => Char.ofNat byte.toNat), padded)

/-- The argument of a tag at an offset, and where it ends. -/
def decodeArgument (data : Bytes) (tag : Char) (offset : ℕ) : Except DecodeProblem (Argument × ℕ) :=
  if tag = 'f' then do return (.float (← unpackFrom data offset), offset + 4)
  else if tag = 'i' then do return (.int (← unpackFrom data offset).toInt, offset + 4)
  else if tag = 's' then do
    let (text, next) ← decodeString data offset
    return (.str text, next)
  else throw (.unsupportedTag tag)

/-- The arguments of the tags, and where the last one ends. -/
def decodeArguments (data : Bytes) : List Char → ℕ → Except DecodeProblem (List Argument × ℕ)
  | [], offset => return ([], offset)
  | tag :: tags, offset => do
      let (value, next) ← decodeArgument data tag offset
      let (values, last) ← decodeArguments data tags next
      return (value :: values, last)

/-- A single message. Whatever is wrong with its address or tags is a truncated message. -/
def decodeOsc (data : Bytes) : Except DecodeProblem Packet :=
  match (do
    let (path, offset) ← decodeString data 0
    let (tags, offset) ← decodeString data offset
    return (path, tags, offset)) with
  | .error _ => throw .truncatedMessage
  | .ok (path, tags, offset) => do
      let ',' :: tags := tags.toList | throw .missingTags
      let (args, last) ← decodeArguments data tags offset
      if last ≠ data.length then throw .trailingData
      return ⟨path, String.ofList tags, args⟩

/-! ### Bundles -/

/-- What a bundle starts with: `#bundle` and a NUL. -/
def bundleHead : Bytes := [35, 98, 117, 110, 100, 108, 101, 0]

/-- The elements of a bundle from an offset. -/
def bundleElements (current : Bytes) (offset : ℕ) : Except DecodeProblem (List Bytes) :=
  if offset + 4 ≤ current.length then do
    let size := (← unpackFrom current offset).toInt
    if size ≤ 0 ∨ size % 4 ≠ 0 ∨ current.length < offset + 4 + size then throw .invalidElementSize
    let next := offset + 4 + size.toNat
    return slice current (offset + 4) next :: (← bundleElements current next)
  else return []
termination_by current.length - offset

theorem length_slice {data : Bytes} {start stop : ℕ} (inside : stop ≤ data.length) :
    (slice data start stop).length = stop - start := by
  rw [slice, List.length_take, List.length_drop]
  omega

/-- One element was read, and the others from where it ends. -/
theorem bundleElements_cases {current : Bytes} {offset : ℕ} {elements : List Bytes}
    (read : bundleElements current offset = .ok elements) :
    (current.length < offset + 4 ∧ elements = [])
    ∨ ∃ word rest, unpackFrom current offset = .ok word ∧ 0 < word.toInt ∧ word.toInt % 4 = 0
      ∧ offset + 4 + word.toInt.toNat ≤ current.length
      ∧ bundleElements current (offset + 4 + word.toInt.toNat) = .ok rest
      ∧ elements = slice current (offset + 4) (offset + 4 + word.toInt.toNat) :: rest := by
  rw [bundleElements] at read
  split_ifs at read with room
  · right
    cases unpacked : unpackFrom current offset with
    | error problem =>
        rw [unpacked] at read
        cases read
    | ok word =>
        rw [unpacked] at read
        simp only [bind, Except.bind] at read
        split_ifs at read with wrong
        cases others : bundleElements current (offset + 4 + word.toInt.toNat) with
        | error problem =>
            rw [others] at read
            cases read
        | ok rest =>
            rw [others] at read
            cases read
            exact ⟨word, rest, rfl, by omega, by omega, by omega, others, rfl⟩
  · left
    cases read
    exact ⟨by omega, rfl⟩

/-- The elements of a bundle and the four bytes before each fit into what follows the offset. -/
theorem bundleElements_length {current : Bytes} {offset : ℕ} {elements : List Bytes}
    (read : bundleElements current offset = .ok elements) (inside : offset ≤ current.length) :
    (elements.map fun raw => raw.length + 1).sum + offset ≤ current.length := by
  induction elements generalizing offset with
  | nil => simpa using inside
  | cons first rest ih =>
      rcases bundleElements_cases read with ⟨-, none⟩ | ⟨word, rest', -, -, -, fits, others, split⟩
      · cases none
      · obtain ⟨rfl, rfl⟩ := List.cons_eq_cons.mp split
        have rest := ih others fits
        have size : (slice current (offset + 4) (offset + 4 + word.toInt.toNat)).length = _ := length_slice fits
        rw [List.map_cons, List.sum_cons]
        omega

/-- The messages the stack still holds, the last pushed first, and what stops the iteration. -/
def unwrap : List Bytes → List Bytes × Option DecodeProblem
  | [] => ([], none)
  | current :: pending =>
      if current.length % 4 ≠ 0 then ([], some .unalignedDelivery)
      else if ¬bundleHead.isPrefixOf current then
        let (raws, problem) := unwrap pending
        (current :: raws, problem)
      else if current.length < 16 then ([], some .truncatedHeader)
      else
        match _ : bundleElements current 16 with
        | .error problem => ([], some problem)
        | .ok elements => unwrap (elements ++ pending)
termination_by pending => (pending.map fun raw => raw.length + 1).sum
decreasing_by
  · simp
  · rename_i read
    have shorter := bundleElements_length read (by omega)
    rw [List.map_append, List.sum_append, List.map_cons, List.sum_cons]
    omega

/-- The messages of a datagram in wire order. -/
def iterOscMessages (datagram : Bytes) : List Bytes × Option DecodeProblem :=
  unwrap [datagram]

/-- Every message of a delivery, each decoded as it is yielded, or what was raised first. -/
def decodeDelivery (data : Bytes) : Except DecodeProblem (List Packet) := do
  let (raws, problem) := iterOscMessages data
  let messages ← raws.mapM decodeOsc
  match problem with
  | none => return messages
  | some problem => throw problem

end OscmixDesk.Osc
