/-
**The message codec is exact.**

Every reader works on the whole packet from an offset; next to each stand what it accepts (`_sound`: the bytes
between the two offsets are the encoding of the value) and that it accepts every encoding (`_complete`). Offsets
stay multiples of four, so padding to the packet and padding to the string are the same:

* `decodeString_sound`, `decodeString_complete`, and the same for arguments;
* `codecExact` — `decodeOsc` accepts the encodings of well-formed messages, and nothing else.
-/

import Mathlib.Data.List.Forall2
import OscmixDesk.Model.Osc

namespace OscmixDesk.Osc

/-! ### Words -/

theorem unpackWord_packWord (word : BitVec 32) (rest : Bytes) :
    unpackWord (packWord word ++ rest) = some word := by
  have small := word.isLt
  rw [packWord, List.cons_append, List.cons_append, List.cons_append, List.cons_append, unpackWord]
  apply congrArg some
  apply BitVec.eq_of_toNat_eq
  simp only [UInt8.toNat_ofNat', BitVec.toNat_ofNat]
  omega

theorem unpackWord_sound {data : Bytes} {word : BitVec 32} (read : unpackWord data = some word) :
    data = packWord word ++ data.drop 4 := by
  match data, read with
  | a :: b :: c :: d :: rest, read =>
      obtain rfl := Option.some_inj.mp read
      have ha := a.toNat_lt
      have hb := b.toNat_lt
      have hc := c.toNat_lt
      have hd := d.toNat_lt
      have whole : (BitVec.ofNat 32 (a.toNat * 2 ^ 24 + b.toNat * 2 ^ 16 + c.toNat * 2 ^ 8 + d.toNat)).toNat
          = a.toNat * 2 ^ 24 + b.toNat * 2 ^ 16 + c.toNat * 2 ^ 8 + d.toNat := by
        rw [BitVec.toNat_ofNat]
        omega
      have byte (byte : UInt8) (n : ℕ) (same : n % 2 ^ 8 = byte.toNat) : byte = UInt8.ofNat n := by
        apply UInt8.toNat_inj.mp
        rw [UInt8.toNat_ofNat', same]
      rw [packWord, whole]
      simp only [List.cons_append, List.nil_append, List.drop_succ_cons, List.drop_zero, List.cons.injEq,
        and_true]
      exact ⟨byte a _ (by omega), byte b _ (by omega), byte c _ (by omega), byte d _ (by omega)⟩

@[simp] theorem length_packWord (word : BitVec 32) : (packWord word).length = 4 := rfl

/-! ### Padding -/

theorem dvd_padding (length : ℕ) : 4 ∣ length + padding length := by
  unfold padding
  omega

/-- Padding does not see whole words in front. -/
theorem padding_add {offset : ℕ} (aligned : 4 ∣ offset) (length : ℕ) :
    padding (offset + length) = padding length := by
  unfold padding
  omega

/-! ### Strings -/

/-- ASCII without NUL. -/
def Plain (text : String) : Prop :=
  ∀ c ∈ text.toList, c.toNat < 128 ∧ c.toNat ≠ 0

instance (text : String) : Decidable (Plain text) :=
  List.decidableBAll (fun c : Char => c.toNat < 128 ∧ c.toNat ≠ 0) text.toList

/-- The bytes of an ASCII string. -/
def bytesOf (text : String) : Bytes :=
  text.toList.map fun c => UInt8.ofNat c.toNat

/-- The text of ASCII bytes. -/
def textOf (bytes : Bytes) : String :=
  String.ofList (bytes.map fun byte => Char.ofNat byte.toNat)

theorem toNat_ofNat {n : ℕ} (small : n < 128) : (Char.ofNat n).toNat = n := by
  have valid : n.isValidChar := Or.inl (by omega)
  rw [Char.ofNat, dif_pos valid]
  rfl

theorem toNat_byte {c : Char} (ascii : c.toNat < 128) : (UInt8.ofNat c.toNat).toNat = c.toNat := by
  rw [UInt8.toNat_ofNat']
  omega

theorem textOf_bytesOf {text : String} (plain : Plain text) : textOf (bytesOf text) = text := by
  have each : ∀ c ∈ text.toList, Char.ofNat (UInt8.ofNat c.toNat).toNat = id c := by
    intro c member
    rw [toNat_byte (plain c member).1, Char.ofNat_toNat, id]
  rw [textOf, bytesOf, List.map_map]
  have same := List.map_congr_left each
  rw [List.map_id] at same
  exact (congrArg String.ofList same).trans String.ofList_toList

theorem bytesOf_textOf {bytes : Bytes} (ascii : ∀ byte ∈ bytes, byte.toNat < 128) :
    bytesOf (textOf bytes) = bytes := by
  have each : ∀ byte ∈ bytes, UInt8.ofNat (Char.ofNat byte.toNat).toNat = id byte := by
    intro byte member
    rw [toNat_ofNat (ascii byte member), UInt8.ofNat_toNat, id]
  rw [bytesOf, textOf, String.toList_ofList, List.map_map]
  have same := List.map_congr_left each
  rw [List.map_id] at same
  exact same

theorem plain_textOf {bytes : Bytes} (ascii : ∀ byte ∈ bytes, byte.toNat < 128)
    (nonzero : ∀ byte ∈ bytes, byte ≠ 0) : Plain (textOf bytes) := by
  intro c member
  rw [textOf, String.toList_ofList] at member
  obtain ⟨byte, among, rfl⟩ := List.mem_map.mp member
  rw [toNat_ofNat (ascii byte among)]
  exact ⟨ascii byte among, fun zero => nonzero byte among (UInt8.toNat_inj.mp zero)⟩

theorem bytesOf_ascii {text : String} (plain : Plain text) {byte : UInt8} (member : byte ∈ bytesOf text) :
    byte.toNat < 128 ∧ byte ≠ 0 := by
  obtain ⟨c, among, rfl⟩ := List.mem_map.mp member
  obtain ⟨ascii, nonzero⟩ := plain c among
  refine ⟨?_, ?_⟩
  · rw [toNat_byte ascii]
    exact ascii
  · intro zero
    apply nonzero
    rw [← toNat_byte ascii, zero]
    rfl

theorem asciiBytes_plain {text : String} (plain : Plain text) : asciiBytes text = .ok (bytesOf text) := by
  have all : text.toList.all (·.toNat < 128) = true := by
    rw [List.all_eq_true]
    intro c member
    exact decide_eq_true (plain c member).1
  rw [asciiBytes, if_pos all]
  rfl

/-- A plain string on the wire. -/
def framed (text : String) : Bytes :=
  bytesOf text ++ 0 :: List.replicate (padding ((bytesOf text).length + 1)) 0

theorem oscString_plain {text : String} (plain : Plain text) : oscString text = .ok (framed text) := by
  rw [oscString, asciiBytes_plain plain]
  simp [framed, bind, Except.bind, pure, Except.pure]

theorem length_framed (text : String) :
    (framed text).length = (bytesOf text).length + 1 + padding ((bytesOf text).length + 1) := by
  rw [framed, List.length_append, List.length_cons, List.length_replicate]
  omega

theorem dvd_framed (text : String) : 4 ∣ (framed text).length := by
  rw [length_framed]
  exact dvd_padding _

/-! ### Reading a string -/

/-- The first zero behind bytes without one. -/
theorem findIdx?_zero {bytes : Bytes} (nonzero : ∀ byte ∈ bytes, byte ≠ 0) (rest : Bytes) :
    (bytes ++ 0 :: rest).findIdx? (· = 0) = some bytes.length := by
  induction bytes with
  | nil => rfl
  | cons first bytes ih =>
      have other := nonzero first List.mem_cons_self
      rw [List.cons_append, List.findIdx?_cons, ih fun byte member => nonzero byte (List.mem_cons_of_mem _ member)]
      simp [other]

/-- What stands before the first zero has none. -/
theorem split_of_findIdx? {data : Bytes} {length : ℕ} (found : data.findIdx? (· = 0) = some length) :
    ∃ bytes rest, data = bytes ++ 0 :: rest ∧ bytes.length = length ∧ ∀ byte ∈ bytes, byte ≠ 0 := by
  induction data generalizing length with
  | nil => cases found
  | cons first data ih =>
      rw [List.findIdx?_cons] at found
      by_cases zero : first = 0
      · rw [if_pos (by simpa using zero)] at found
        obtain rfl := Option.some_inj.mp found
        exact ⟨[], data, by rw [zero]; rfl, rfl, by simp⟩
      · rw [if_neg (by simpa using zero)] at found
        obtain ⟨before, later, rfl⟩ := Option.map_eq_some_iff.mp found
        obtain ⟨bytes, rest, rfl, rfl, nonzero⟩ := ih later
        refine ⟨first :: bytes, rest, rfl, rfl, ?_⟩
        intro byte member
        rcases List.mem_cons.mp member with rfl | member
        · exact zero
        · exact nonzero byte member

theorem slice_drop {data bytes rest : Bytes} {start stop : ℕ} (split : data.drop start = bytes ++ rest)
    (length : stop = start + bytes.length) : slice data start stop = bytes := by
  have size : stop - start = bytes.length := by omega
  rw [slice, split, size, List.take_left]

theorem drop_drop {data bytes rest : Bytes} {start : ℕ} (split : data.drop start = bytes ++ rest) :
    data.drop (start + bytes.length) = rest := by
  rw [← List.drop_drop, split, List.drop_left]

theorem length_of_drop {data bytes rest : Bytes} {start : ℕ} (split : data.drop start = bytes ++ rest)
    (some : bytes ≠ []) : start + bytes.length + rest.length = data.length := by
  have length := congrArg List.length split
  rw [List.length_drop, List.length_append] at length
  have := List.length_pos_iff.mpr some
  omega

/-- A string is read where it stands. -/
theorem decodeString_complete {data rest : Bytes} {offset : ℕ} {text : String} (aligned : 4 ∣ offset)
    (plain : Plain text) (split : data.drop offset = framed text ++ rest) :
    decodeString data offset = .ok (text, offset + (framed text).length) := by
  have fits := length_of_drop split (by simp [framed])
  rw [length_framed] at fits ⊢
  rw [framed, List.append_assoc, List.cons_append] at split
  -- the string, its NUL, and the padding
  have found := findIdx?_zero (fun byte member => (bytesOf_ascii plain member).2)
    (List.replicate (padding ((bytesOf text).length + 1)) 0 ++ rest)
  have value : slice data offset (offset + (bytesOf text).length) = bytesOf text := slice_drop split rfl
  have ascii : (bytesOf text).any (128 ≤ ·.toNat) = false := by
    rw [List.any_eq_false]
    intro byte member
    have := (bytesOf_ascii plain member).1
    simpa using this
  have stop : padding (offset + (bytesOf text).length + 1) = padding ((bytesOf text).length + 1) := by
    rw [Nat.add_assoc, padding_add aligned]
  have behind : data.drop (offset + (bytesOf text).length + 1)
      = List.replicate (padding ((bytesOf text).length + 1)) 0 ++ rest := by
    rw [← List.singleton_append, ← List.append_assoc] at split
    have dropped := drop_drop split
    rw [List.length_append, List.length_singleton, ← Nat.add_assoc] at dropped
    exact dropped
  have zeros : slice data (offset + (bytesOf text).length + 1)
      (offset + (bytesOf text).length + 1 + padding ((bytesOf text).length + 1))
      = List.replicate (padding ((bytesOf text).length + 1)) 0 :=
    slice_drop behind (by rw [List.length_replicate])
  have long : ¬data.length < offset + (bytesOf text).length + 1 + padding ((bytesOf text).length + 1) := by
    omega
  have same : String.ofList ((bytesOf text).map fun byte => Char.ofNat byte.toNat) = text := textOf_bytesOf plain
  rw [decodeString, split, found]
  simp only [bind, Except.bind, value, ascii, stop, zeros, long, same]
  simp [pure, Except.pure, Nat.add_assoc]

/-- What was read as a string is the encoding of it. -/
theorem decodeString_sound {data : Bytes} {offset next : ℕ} {text : String} (aligned : 4 ∣ offset)
    (read : decodeString data offset = .ok (text, next)) :
    Plain text ∧ next = offset + (framed text).length
      ∧ data.drop offset = framed text ++ data.drop next := by
  rw [decodeString] at read
  cases found : (data.drop offset).findIdx? (· = 0) with
  | none =>
      rw [found] at read
      cases read
  | some length =>
      obtain ⟨bytes, rest, split, rfl, nonzero⟩ := split_of_findIdx? found
      rw [found] at read
      simp only [bind, Except.bind, slice_drop split rfl] at read
      split_ifs at read with foreign wrong
      have ascii : ∀ byte ∈ bytes, byte.toNat < 128 := by
        intro byte member
        by_contra high
        apply foreign
        rw [List.any_eq_true]
        exact ⟨byte, member, decide_eq_true (by omega)⟩
      have plain : Plain (textOf bytes) := plain_textOf ascii nonzero
      obtain ⟨rfl, rfl⟩ : textOf bytes = text
          ∧ offset + bytes.length + 1 + padding (offset + bytes.length + 1) = next := by
        cases read
        exact ⟨rfl, rfl⟩
      have length : offset + (framed (textOf bytes)).length
          = offset + bytes.length + 1 + padding (offset + bytes.length + 1) := by
        rw [length_framed, bytesOf_textOf ascii, Nat.add_assoc offset bytes.length 1, padding_add aligned]
        omega
      refine ⟨plain, length.symm, ?_⟩
      -- behind the NUL the padding is all there, and zero
      have behind : data.drop (offset + bytes.length + 1) = rest := by
        rw [← List.singleton_append, ← List.append_assoc] at split
        have dropped := drop_drop split
        rw [List.length_append, List.length_singleton, ← Nat.add_assoc] at dropped
        exact dropped
      have zeros : rest.take (padding (bytes.length + 1)) = List.replicate (padding (bytes.length + 1)) 0 := by
        rw [not_or, List.any_eq_true, slice, behind, Nat.add_sub_cancel_left, Nat.add_assoc offset,
          padding_add aligned] at wrong
        obtain ⟨long, clean⟩ := wrong
        rw [List.eq_replicate_iff]
        refine ⟨?_, ?_⟩
        · have size := congrArg List.length behind
          rw [List.length_drop] at size
          rw [List.length_take]
          omega
        · intro byte member
          by_contra other
          exact clean ⟨byte, member, decide_eq_true other⟩
      have last : data.drop (offset + (framed (textOf bytes)).length)
          = rest.drop (padding (bytes.length + 1)) := by
        rw [← behind, List.drop_drop, length, Nat.add_assoc offset bytes.length 1, padding_add aligned]
      rw [← length, last, split, framed, bytesOf_textOf ascii, List.append_assoc, List.cons_append, ← zeros,
        List.take_append_drop]

/-! ### Arguments -/

/-- A value its tag can carry: a 32-bit integer, any pattern, a plain string. -/
def Argument.Fits : Char → Argument → Prop
  | 'i', .int number => -(2 ^ 31) ≤ number ∧ number < 2 ^ 31
  | 'f', .float _ => True
  | 's', .str text => Plain text
  | _, _ => False

/-- The bytes of a value. -/
def argumentBytes : Argument → Bytes
  | .int number => packWord (BitVec.ofInt 32 number)
  | .float pattern => packWord pattern
  | .str text => framed text

theorem dvd_argumentBytes (value : Argument) : 4 ∣ (argumentBytes value).length := by
  cases value with
  | int number => exact Nat.dvd_refl 4
  | float pattern => exact Nat.dvd_refl 4
  | str text => exact dvd_framed text

variable {conversions : Conversions}

/-- A value that fits is of the kind of its tag. -/
theorem Argument.Fits.cases {tag : Char} {value : Argument} (fits : value.Fits tag) :
    (∃ number, tag = 'i' ∧ value = .int number ∧ -(2 ^ 31) ≤ number ∧ number < 2 ^ 31)
    ∨ (∃ pattern, tag = 'f' ∧ value = .float pattern)
    ∨ (∃ text, tag = 's' ∧ value = .str text ∧ Plain text) := by
  unfold Argument.Fits at fits
  split at fits
  · exact Or.inl ⟨_, rfl, rfl, fits⟩
  · exact Or.inr (Or.inl ⟨_, rfl, rfl⟩)
  · exact Or.inr (Or.inr ⟨_, rfl, rfl, fits⟩)
  · exact fits.elim

theorem encodeArgument_fits {tag : Char} {value : Argument} (fits : value.Fits tag) :
    encodeArgument conversions tag value = .ok (argumentBytes value) := by
  rcases fits.cases with ⟨number, rfl, rfl, low, high⟩ | ⟨pattern, rfl, rfl⟩ | ⟨text, rfl, rfl, plain⟩
  · have inside : -(2 ^ 31) ≤ number ∧ number < 2 ^ 31 := ⟨low, high⟩
    simp only [encodeArgument, bind, Except.bind, pure, Except.pure, inside]
    rfl
  · rfl
  · simpa [encodeArgument, argumentBytes] using oscString_plain plain

theorem unpackFrom_complete {data rest : Bytes} {offset : ℕ} {word : BitVec 32}
    (split : data.drop offset = packWord word ++ rest) : unpackFrom data offset = .ok word := by
  rw [unpackFrom, split, unpackWord_packWord]

theorem unpackFrom_sound {data : Bytes} {offset : ℕ} {word : BitVec 32}
    (read : unpackFrom data offset = .ok word) :
    data.drop offset = packWord word ++ data.drop (offset + 4) := by
  rw [unpackFrom] at read
  cases found : unpackWord (data.drop offset) with
  | none =>
      rw [found] at read
      cases read
  | some other =>
      rw [found] at read
      obtain rfl := Except.ok.inj read
      rw [← List.drop_drop]
      exact unpackWord_sound found

/-- A value is read where it stands. -/
theorem decodeArgument_complete {data rest : Bytes} {offset : ℕ} {tag : Char} {value : Argument}
    (aligned : 4 ∣ offset) (fits : value.Fits tag) (split : data.drop offset = argumentBytes value ++ rest) :
    decodeArgument data tag offset = .ok (value, offset + (argumentBytes value).length) := by
  rcases fits.cases with ⟨number, rfl, rfl, low, high⟩ | ⟨pattern, rfl, rfl⟩ | ⟨text, rfl, rfl, plain⟩
  · have whole : (BitVec.ofInt 32 number).toInt = number := by
      rw [BitVec.toInt_ofInt]
      apply Int.bmod_eq_of_le
      · omega
      · omega
    simp [decodeArgument, unpackFrom_complete split, argumentBytes, whole, bind, Except.bind, pure, Except.pure]
  · simp [decodeArgument, unpackFrom_complete split, argumentBytes, bind, Except.bind, pure, Except.pure]
  · simp [decodeArgument, decodeString_complete aligned plain split, argumentBytes, bind, Except.bind, pure,
      Except.pure]

/-- What was read under a tag fits it, and is the encoding of it. -/
theorem decodeArgument_sound {data : Bytes} {offset next : ℕ} {tag : Char} {value : Argument}
    (aligned : 4 ∣ offset) (read : decodeArgument data tag offset = .ok (value, next)) :
    value.Fits tag ∧ next = offset + (argumentBytes value).length
      ∧ data.drop offset = argumentBytes value ++ data.drop next := by
  rw [decodeArgument] at read
  split_ifs at read with isFloat isInt isString
  · cases unpacked : unpackFrom data offset with
    | error problem =>
        rw [unpacked] at read
        cases read
    | ok word =>
        rw [unpacked] at read
        cases read
        exact ⟨isFloat ▸ trivial, rfl, unpackFrom_sound unpacked⟩
  · cases unpacked : unpackFrom data offset with
    | error problem =>
        rw [unpacked] at read
        cases read
    | ok word =>
        rw [unpacked] at read
        cases read
        have low := BitVec.le_toInt word
        have high := BitVec.toInt_lt (x := word)
        refine ⟨?_, rfl, ?_⟩
        · rw [isInt]
          exact ⟨low, high⟩
        · rw [argumentBytes, BitVec.ofInt_toInt]
          exact unpackFrom_sound unpacked
  · cases decoded : decodeString data offset with
    | error problem =>
        rw [decoded] at read
        cases read
    | ok found =>
        rw [decoded] at read
        cases read
        obtain ⟨plain, length, split⟩ := decodeString_sound aligned decoded
        refine ⟨?_, length, split⟩
        rw [isString]
        exact plain

/-- The values of the tags, one after another. -/
def ArgumentsFit : List Char → List Argument → Prop :=
  List.Forall₂ fun tag value => value.Fits tag

def argumentsBytes (values : List Argument) : Bytes :=
  values.flatMap argumentBytes

theorem encodeArguments_fit {tags : List Char} {values : List Argument} (fit : ArgumentsFit tags values) :
    encodeArguments conversions tags values = .ok (argumentsBytes values) := by
  induction fit with
  | nil => rfl
  | cons fits _ ih =>
      rw [encodeArguments, encodeArgument_fits fits, ih]
      rfl

theorem decodeArguments_complete {data rest : Bytes} {offset : ℕ} {tags : List Char} {values : List Argument}
    (aligned : 4 ∣ offset) (fit : ArgumentsFit tags values)
    (split : data.drop offset = argumentsBytes values ++ rest) :
    decodeArguments data tags offset = .ok (values, offset + (argumentsBytes values).length) := by
  induction fit generalizing offset with
  | nil => rfl
  | cons fits _ ih =>
      rw [argumentsBytes, List.flatMap_cons, List.append_assoc] at split
      have read := decodeArgument_complete aligned fits split
      have others := ih (Nat.dvd_add aligned (dvd_argumentBytes _)) (drop_drop split)
      rw [decodeArguments, read]
      simp only [bind, Except.bind, others]
      rw [Nat.add_assoc, ← List.length_append, argumentsBytes, argumentsBytes, List.flatMap_cons]
      rfl

theorem decodeArguments_sound {data : Bytes} {offset last : ℕ} {tags : List Char} {values : List Argument}
    (aligned : 4 ∣ offset) (read : decodeArguments data tags offset = .ok (values, last)) :
    ArgumentsFit tags values ∧ last = offset + (argumentsBytes values).length
      ∧ data.drop offset = argumentsBytes values ++ data.drop last := by
  induction tags generalizing offset values with
  | nil =>
      cases read
      exact ⟨List.Forall₂.nil, rfl, rfl⟩
  | cons tag tags ih =>
      rw [decodeArguments] at read
      cases first : decodeArgument data tag offset with
      | error problem =>
          rw [first] at read
          cases read
      | ok found =>
          obtain ⟨value, next⟩ := found
          obtain ⟨fits, rfl, split⟩ := decodeArgument_sound aligned first
          cases others : decodeArguments data tags (offset + (argumentBytes value).length) with
          | error problem =>
              rw [first] at read
              simp only [bind, Except.bind, others] at read
              cases read
          | ok found =>
              obtain ⟨more, stop⟩ := found
              rw [first] at read
              simp only [bind, Except.bind, others] at read
              cases read
              obtain ⟨fit, length, behind⟩ := ih (Nat.dvd_add aligned (dvd_argumentBytes value)) others
              refine ⟨List.Forall₂.cons fits fit, ?_, ?_⟩
              · rw [length, argumentsBytes, argumentsBytes, List.flatMap_cons, List.length_append, Nat.add_assoc]
              · rw [split, behind, argumentsBytes, argumentsBytes, List.flatMap_cons, List.append_assoc]

/-! ### Messages -/

/-- A plain address, and values of the kinds of their tags. -/
structure Packet.WellFormed (packet : Packet) : Prop where
  path : Plain packet.path
  args : ArgumentsFit packet.tags.toList packet.args

/-- The bytes of a message. -/
def packetBytes (packet : Packet) : Bytes :=
  framed packet.path ++ framed ("," ++ packet.tags) ++ argumentsBytes packet.args

/-- Tags of values are plain, with the comma in front. -/
theorem plain_tags {tags : String} {values : List Argument} (fit : ArgumentsFit tags.toList values) :
    Plain ("," ++ tags) := by
  have each (chars : List Char) (values : List Argument) (fit : ArgumentsFit chars values) :
      ∀ c ∈ chars, c.toNat < 128 ∧ c.toNat ≠ 0 := by
    induction fit with
    | nil => simp
    | cons fits _ ih =>
        intro c member
        rcases List.mem_cons.mp member with rfl | member
        · rcases fits.cases with ⟨_, rfl, _⟩ | ⟨_, rfl, _⟩ | ⟨_, rfl, _⟩ <;> decide
        · exact ih c member
  intro c member
  rw [String.toList_append] at member
  rcases List.mem_append.mp member with comma | member
  · obtain rfl := List.mem_singleton.mp comma
    decide
  · exact each _ _ fit c member

theorem encodeOsc_wellFormed {packet : Packet} (formed : packet.WellFormed) :
    encodeOsc conversions packet = .ok (packetBytes packet) := by
  have count : ¬packet.tags.length ≠ packet.args.length := by
    rw [← String.length_toList, formed.args.length_eq]
    exact not_not_intro rfl
  rw [encodeOsc, if_neg count, oscString_plain formed.path, oscString_plain (plain_tags formed.args),
    encodeArguments_fit formed.args]
  rfl

/-- The encoding of a message is read as it. -/
theorem decodeOsc_complete {packet : Packet} (formed : packet.WellFormed) :
    decodeOsc (packetBytes packet) = .ok packet := by
  obtain ⟨path, tags, args⟩ := packet
  have first : decodeString (packetBytes ⟨path, tags, args⟩) 0 = .ok (path, (framed path).length) := by
    have start : (packetBytes ⟨path, tags, args⟩).drop 0
        = framed path ++ (framed ("," ++ tags) ++ argumentsBytes args) := by
      rw [List.drop_zero, packetBytes, List.append_assoc]
    have read := decodeString_complete (Nat.dvd_zero 4) formed.path start
    rwa [Nat.zero_add] at read
  have behind : (packetBytes ⟨path, tags, args⟩).drop (framed path).length
      = framed ("," ++ tags) ++ argumentsBytes args := by
    rw [packetBytes, List.append_assoc, List.drop_left]
  have second := decodeString_complete (dvd_framed path) (plain_tags formed.args) behind
  have third : (packetBytes ⟨path, tags, args⟩).drop ((framed path).length + (framed ("," ++ tags)).length)
      = argumentsBytes args ++ [] := by
    rw [drop_drop behind, List.append_nil]
  have values := decodeArguments_complete (Nat.dvd_add (dvd_framed path) (dvd_framed _)) formed.args third
  have whole : (framed path).length + (framed ("," ++ tags)).length + (argumentsBytes args).length
      = (packetBytes ⟨path, tags, args⟩).length := by
    rw [packetBytes, List.length_append, List.length_append]
  rw [whole] at values
  have comma : ("," ++ tags).toList = ',' :: tags.toList := by
    rw [String.toList_append]
    rfl
  rw [decodeOsc]
  simp only [first, second, bind, Except.bind, pure, Except.pure, comma, values]
  simp

/-- What is read as a message is the encoding of it. -/
theorem decodeOsc_sound {data : Bytes} {packet : Packet} (read : decodeOsc data = .ok packet) :
    packet.WellFormed ∧ data = packetBytes packet := by
  rw [decodeOsc] at read
  cases first : decodeString data 0 with
  | error problem =>
      simp only [first, bind, Except.bind] at read
      cases read
  | ok found =>
      obtain ⟨path, offset⟩ := found
      obtain ⟨plainPath, length, start⟩ := decodeString_sound (Nat.dvd_zero 4) first
      rw [Nat.zero_add] at length
      rw [List.drop_zero] at start
      cases second : decodeString data offset with
      | error problem =>
          simp only [first, second, bind, Except.bind] at read
          cases read
      | ok found =>
          obtain ⟨tags, next⟩ := found
          obtain ⟨-, length', behind⟩ := decodeString_sound (length ▸ dvd_framed path) second
          simp only [first, second, bind, Except.bind, pure, Except.pure] at read
          split at read
          · next tail comma =>
              cases third : decodeArguments data tail next with
              | error problem =>
                  rw [third] at read
                  cases read
              | ok found =>
                  obtain ⟨values, last⟩ := found
                  have aligned : 4 ∣ next := by
                    rw [length', length]
                    exact Nat.dvd_add (dvd_framed path) (dvd_framed tags)
                  obtain ⟨fit, -, rest⟩ := decodeArguments_sound aligned third
                  rw [third] at read
                  dsimp only at read
                  split_ifs at read with trailing
                  have stop : last = data.length := not_not.mp trailing
                  obtain rfl := Except.ok.inj read
                  have spelled : "," ++ String.ofList tail = tags := by
                    apply String.toList_inj.mp
                    rw [String.toList_append, String.toList_ofList, String.toList_ofList, comma]
                    rfl
                  have nothing : data.drop last = [] := by rw [stop, List.drop_length]
                  refine ⟨⟨plainPath, ?_⟩, ?_⟩
                  · rw [String.toList_ofList]
                    exact fit
                  · rw [nothing, List.append_nil] at rest
                    rw [packetBytes, spelled, List.append_assoc]
                    dsimp only
                    rw [← rest, ← behind]
                    exact start
          · cases read

/-- **The message codec is exact.** Every message of a plain address and of 32-bit integers, float patterns and
plain strings under their tags is encoded, and read back as it is; and whatever bytes are read as a message are
the encoding of it. So exactly the encodings are accepted, and no two byte strings are read as one message. -/
theorem codecExact (conversions : Conversions) :
    (∀ packet : Packet, packet.WellFormed →
      ∃ data, encodeOsc conversions packet = .ok data ∧ decodeOsc data = .ok packet)
    ∧ (∀ data packet, decodeOsc data = .ok packet →
      packet.WellFormed ∧ encodeOsc conversions packet = .ok data)
    ∧ (∀ data, (¬∃ packet : Packet, packet.WellFormed ∧ encodeOsc conversions packet = .ok data) →
      ∃ problem, decodeOsc data = .error problem)
    ∧ (∀ data other packet, decodeOsc data = .ok packet → decodeOsc other = .ok packet → data = other) := by
  refine ⟨?_, ?_, ?_, ?_⟩
  · intro packet formed
    exact ⟨packetBytes packet, encodeOsc_wellFormed formed, decodeOsc_complete formed⟩
  · intro data packet read
    obtain ⟨formed, rfl⟩ := decodeOsc_sound read
    exact ⟨formed, encodeOsc_wellFormed formed⟩
  · intro data none
    cases read : decodeOsc data with
    | error problem => exact ⟨problem, rfl⟩
    | ok packet =>
        obtain ⟨formed, rfl⟩ := decodeOsc_sound read
        exact absurd ⟨packet, formed, encodeOsc_wellFormed formed⟩ none
  · intro data other packet read read'
    rw [(decodeOsc_sound read).2, (decodeOsc_sound read').2]

end OscmixDesk.Osc
