/-
**Bundles are unwrapped exactly.**

What a delivery is, is said without a stack: a `Delivery` is a message or a bundle of deliveries, `wire` are its
bytes and `messages` its messages, depth first; `Broken` bytes have a fault at some depth. The stack of `unwrap`
is read element by element:

* `bundleElements_complete`, `bundleElements_sound` — the elements of a bundle are the sized parts of its body;
* `deliver_ok`, `deliver_error` — a stack is delivered as the trees of its parts, or one part is broken;
* `deliveryExact` — the same of `decodeDelivery`, which unwraps a stack of one part.
-/

import OscmixDesk.Proof.Wire

namespace OscmixDesk.Osc

/-! ### Deliveries -/

/-- A message, or a bundle of a time tag and elements. -/
inductive Delivery
  | message (packet : Packet)
  | bundle (time : Bytes) (elements : List Delivery)

/-- An element of a bundle: its size and its bytes. -/
def sized (raw : Bytes) : Bytes :=
  packWord (BitVec.ofNat 32 raw.length) ++ raw

mutual

/-- The bytes of a delivery. -/
def Delivery.wire : Delivery → Bytes
  | .message packet => packetBytes packet
  | .bundle time elements => bundleHead ++ time ++ wires elements

/-- The elements of a bundle, each with its size. -/
def wires : List Delivery → Bytes
  | [] => []
  | element :: elements => sized element.wire ++ wires elements

end

mutual

/-- The messages of a delivery in wire order. -/
def Delivery.messages : Delivery → List Packet
  | .message packet => [packet]
  | .bundle _ elements => messagesOf elements

def messagesOf : List Delivery → List Packet
  | [] => []
  | element :: elements => element.messages ++ messagesOf elements

end

mutual

/-- Well-formed messages, none of which starts like a bundle, in bundles whose sizes fit their word. -/
def Delivery.WellFormed : Delivery → Prop
  | .message packet => packet.WellFormed ∧ packet.path ≠ "#bundle"
  | .bundle time elements => time.length = 8 ∧ WellFormedAll elements

def WellFormedAll : List Delivery → Prop
  | [] => True
  | element :: elements => element.WellFormed ∧ element.wire.length < 2 ^ 31 ∧ WellFormedAll elements

end

/-- A size that is not positive, no multiple of four, or more than there is. -/
def BadSize (body : Bytes) (size : ℤ) : Prop :=
  size ≤ 0 ∨ size % 4 ≠ 0 ∨ body.length < 4 + size

mutual

/-- Bytes with a fault at some depth. -/
inductive Broken : Bytes → Prop
  | unaligned {data : Bytes} : data.length % 4 ≠ 0 → Broken data
  | malformed {data : Bytes} {problem : DecodeProblem} :
      ¬bundleHead <+: data → decodeOsc data = .error problem → Broken data
  | header {data : Bytes} : bundleHead <+: data → data.length < 16 → Broken data
  | bundle {data : Bytes} : bundleHead <+: data → BrokenElements (data.drop 16) → Broken data

/-- The elements of a bundle, one with a bad size or broken itself. -/
inductive BrokenElements : Bytes → Prop
  | size {body : Bytes} {word : BitVec 32} :
      unpackWord body = some word → BadSize body word.toInt → BrokenElements body
  | here {body : Bytes} {word : BitVec 32} : unpackWord body = some word → ¬BadSize body word.toInt →
      Broken (slice body 4 (4 + word.toInt.toNat)) → BrokenElements body
  | later {body : Bytes} {word : BitVec 32} : unpackWord body = some word → ¬BadSize body word.toInt →
      BrokenElements (body.drop (4 + word.toInt.toNat)) → BrokenElements body

end

/-! ### Lengths and heads -/

theorem dvd_packetBytes (packet : Packet) : 4 ∣ (packetBytes packet).length := by
  have args (values : List Argument) : 4 ∣ (argumentsBytes values).length := by
    induction values with
    | nil => exact Nat.dvd_zero 4
    | cons value values ih =>
        rw [argumentsBytes, List.flatMap_cons, List.length_append]
        exact Nat.dvd_add (dvd_argumentBytes value) ih
  rw [packetBytes, List.length_append, List.length_append]
  exact Nat.dvd_add (Nat.dvd_add (dvd_framed _) (dvd_framed _)) (args _)

/-- Only a message to `#bundle` starts like a bundle. -/
theorem not_bundleHead {packet : Packet} (formed : packet.WellFormed) (other : packet.path ≠ "#bundle") :
    ¬bundleHead <+: packetBytes packet := by
  rintro ⟨rest, same⟩
  have head : bundleHead = bytesOf "#bundle" ++ [0] := rfl
  have plain : Plain "#bundle" := by decide
  obtain ⟨tail, split⟩ : ∃ tail, packetBytes packet = bytesOf packet.path ++ 0 :: tail :=
    ⟨_, by rw [packetBytes, framed, List.append_assoc, List.append_assoc, List.cons_append]⟩
  rw [head, List.append_assoc, List.singleton_append, split] at same
  have first := findIdx?_zero (fun byte member => (bytesOf_ascii formed.path member).2) tail
  have second := findIdx?_zero (fun byte member => (bytesOf_ascii plain member).2) rest
  rw [same, first] at second
  have bytes := (List.append_inj same (Option.some_inj.mp second).symm).1
  apply other
  rw [← textOf_bytesOf formed.path, ← bytes, textOf_bytesOf plain]

theorem bundleHead_prefix {packet : Packet} (same : packet.path = "#bundle") :
    bundleHead <+: packetBytes packet := by
  have head : framed "#bundle" = bundleHead := by decide
  rw [packetBytes, same, head, List.append_assoc]
  exact List.prefix_append _ _

theorem packetBytes_pos (packet : Packet) : 0 < (packetBytes packet).length := by
  rw [packetBytes, List.length_append, List.length_append, length_framed]
  omega

theorem length_sized (raw : Bytes) : (sized raw).length = 4 + raw.length := by
  rw [sized, List.length_append, length_packWord]

theorem wires_eq (elements : List Delivery) : wires elements = (elements.map Delivery.wire).flatMap sized := by
  induction elements with
  | nil => rfl
  | cons element elements ih => rw [wires, ih, List.map_cons, List.flatMap_cons]

theorem wellFormedAll_iff (elements : List Delivery) :
    WellFormedAll elements
      ↔ ∀ element ∈ elements, element.WellFormed ∧ element.wire.length < 2 ^ 31 := by
  induction elements with
  | nil => simp [WellFormedAll]
  | cons element elements ih => simp [WellFormedAll, ih, and_assoc]

theorem messagesOf_append (first rest : List Delivery) :
    messagesOf (first ++ rest) = messagesOf first ++ messagesOf rest := by
  induction first with
  | nil => rfl
  | cons element first ih => rw [List.cons_append, messagesOf, messagesOf, ih, List.append_assoc]

theorem wire_pos (element : Delivery) : 0 < element.wire.length := by
  cases element with
  | message packet => exact packetBytes_pos packet
  | bundle time elements =>
      rw [Delivery.wire, List.append_assoc, List.length_append]
      exact Nat.lt_of_lt_of_le (by decide : 0 < bundleHead.length) (Nat.le_add_right _ _)

mutual

theorem dvd_wire : ∀ element : Delivery, element.WellFormed → 4 ∣ element.wire.length
  | .message packet, _ => dvd_packetBytes packet
  | .bundle time elements, formed => by
      have body := dvd_wires elements formed.2
      have head : bundleHead.length = 8 := rfl
      rw [Delivery.wire, List.length_append, List.length_append, formed.1, head]
      omega

theorem dvd_wires : ∀ elements : List Delivery, WellFormedAll elements → 4 ∣ (wires elements).length
  | [], _ => Nat.dvd_zero 4
  | element :: elements, formed => by
      have first := dvd_wire element formed.1
      have rest := dvd_wires elements formed.2.2
      rw [wires, List.length_append, length_sized]
      omega

end

/-! ### The elements of a bundle -/

/-- A part of a bundle's body: not empty, aligned, of a size that fits its word. -/
def Sizeable (raw : Bytes) : Prop :=
  0 < raw.length ∧ 4 ∣ raw.length ∧ raw.length < 2 ^ 31

theorem toInt_size {raw : Bytes} (size : Sizeable raw) : (BitVec.ofNat 32 raw.length).toInt = raw.length := by
  obtain ⟨-, -, small⟩ := size
  have whole : (BitVec.ofNat 32 raw.length).toNat = raw.length := by
    rw [BitVec.toNat_ofNat]
    omega
  rw [BitVec.toInt_eq_toNat_of_lt (by omega), whole]

theorem bundleElements_complete {data : Bytes} {offset : ℕ} {raws : List Bytes} (inside : offset ≤ data.length)
    (split : data.drop offset = raws.flatMap sized) (sizes : ∀ raw ∈ raws, Sizeable raw) :
    bundleElements data offset = .ok raws := by
  induction raws generalizing offset with
  | nil =>
      have room : ¬offset + 4 ≤ data.length := by
        rw [List.flatMap_nil, List.drop_eq_nil_iff] at split
        omega
      rw [bundleElements, if_neg room]
      rfl
  | cons raw raws ih =>
      have size := sizes raw List.mem_cons_self
      have whole := toInt_size size
      rw [List.flatMap_cons, sized, List.append_assoc] at split
      have behind := drop_drop split
      rw [length_packWord] at behind
      have fits := length_of_drop behind (List.ne_nil_of_length_pos size.1)
      have part : slice data (offset + 4) (offset + 4 + raw.length) = raw := slice_drop behind rfl
      have others := ih (by omega) (drop_drop behind) fun raw member => sizes raw (List.mem_cons_of_mem _ member)
      obtain ⟨positive, aligned, small⟩ := size
      rw [bundleElements, if_pos (by omega), unpackFrom_complete split]
      simp only [bind, Except.bind, whole, Int.toNat_natCast]
      rw [if_neg (by omega), part, others]
      rfl

theorem bundleElements_sound {data : Bytes} {offset : ℕ} {raws : List Bytes} (aligned : 4 ∣ data.length)
    (whole : 4 ∣ offset) (inside : offset ≤ data.length) (read : bundleElements data offset = .ok raws) :
    data.drop offset = raws.flatMap sized ∧ ∀ raw ∈ raws, Sizeable raw := by
  induction raws generalizing offset with
  | nil =>
      rcases bundleElements_cases read with ⟨short, -⟩ | ⟨word, rest, -, -, -, -, -, split⟩
      · refine ⟨?_, by simp⟩
        rw [List.flatMap_nil, List.drop_eq_nil_iff]
        omega
      · cases split
  | cons raw raws ih =>
      rcases bundleElements_cases read with ⟨-, split⟩ | ⟨word, rest, unpacked, positive, multiple, fits, others, split⟩
      · cases split
      · obtain ⟨part, rfl⟩ := List.cons_eq_cons.mp split
        have length : raw.length = word.toInt.toNat := by
          rw [part, length_slice fits]
          omega
        obtain ⟨behind, sizes⟩ := ih (by omega) fits others
        have size : Sizeable raw := by
          have high := BitVec.toInt_lt (x := word)
          exact ⟨by omega, by omega, by omega⟩
        have same : BitVec.ofNat 32 raw.length = word := by
          apply BitVec.eq_of_toInt_eq
          rw [toInt_size size]
          omega
        refine ⟨?_, ?_⟩
        · have between : data.drop (offset + 4) = raw ++ data.drop (offset + 4 + word.toInt.toNat) := by
            rw [← List.take_append_drop word.toInt.toNat (data.drop (offset + 4)), List.drop_drop, part, slice,
              Nat.add_sub_cancel_left]
          rw [unpackFrom_sound unpacked, between, behind, List.flatMap_cons, sized, same, List.append_assoc]
        · intro other member
          rcases List.mem_cons.mp member with rfl | member
          · exact size
          · exact sizes other member

/-! ### The stack -/

/-- The messages a stack delivers. -/
def deliver (pending : List Bytes) : Except DecodeProblem (List Packet) := do
  let messages ← (unwrap pending).1.mapM decodeOsc
  match (unwrap pending).2 with
  | none => return messages
  | some problem => throw problem

section Deliver

variable {current : Bytes} {pending elements : List Bytes} {problem : DecodeProblem}

theorem deliver_nil : deliver [] = .ok [] := by
  rw [deliver, unwrap]
  rfl

theorem deliver_unaligned (unaligned : current.length % 4 ≠ 0) :
    deliver (current :: pending) = .error .unalignedDelivery := by
  rw [deliver, unwrap, if_pos unaligned]
  rfl

theorem deliver_message (aligned : ¬current.length % 4 ≠ 0) (plain : ¬bundleHead.isPrefixOf current) :
    deliver (current :: pending) = do
      let first ← decodeOsc current
      return first :: (← deliver pending) := by
  rw [deliver, unwrap, if_neg aligned, if_pos plain, deliver]
  simp only [List.mapM_cons]
  cases decodeOsc current with
  | error problem => rfl
  | ok first =>
      cases (unwrap pending).1.mapM decodeOsc with
      | error problem => rfl
      | ok messages => cases (unwrap pending).2 <;> rfl

theorem deliver_header (aligned : ¬current.length % 4 ≠ 0) (head : ¬¬bundleHead.isPrefixOf current)
    (short : current.length < 16) : deliver (current :: pending) = .error .truncatedHeader := by
  rw [deliver, unwrap, if_neg aligned, if_neg head, if_pos short]
  rfl

theorem deliver_framing (aligned : ¬current.length % 4 ≠ 0) (head : ¬¬bundleHead.isPrefixOf current)
    (long : ¬current.length < 16) (read : bundleElements current 16 = .error problem) :
    deliver (current :: pending) = .error problem := by
  rw [deliver, unwrap, if_neg aligned, if_neg head, if_neg long]
  split
  · next other same =>
      rw [read] at same
      cases same
      rfl
  · next other same =>
      rw [read] at same
      cases same

theorem deliver_elements (aligned : ¬current.length % 4 ≠ 0) (head : ¬¬bundleHead.isPrefixOf current)
    (long : ¬current.length < 16) (read : bundleElements current 16 = .ok elements) :
    deliver (current :: pending) = deliver (elements ++ pending) := by
  rw [deliver, unwrap, if_neg aligned, if_neg head, if_neg long]
  split
  · next other same =>
      rw [read] at same
      cases same
  · next other same =>
      rw [read] at same
      obtain rfl := Except.ok.inj same
      rfl

end Deliver

/-! ### What a stack delivers -/

theorem wellFormed_message {element : Delivery} (formed : element.WellFormed)
    (plain : ¬bundleHead.isPrefixOf element.wire) :
    ∃ packet, element = .message packet ∧ packet.WellFormed := by
  cases element with
  | message packet => exact ⟨packet, rfl, formed.1⟩
  | bundle time elements =>
      apply absurd _ plain
      rw [List.isPrefixOf_iff_prefix, Delivery.wire, List.append_assoc]
      exact List.prefix_append _ _

/-- A bundle is a header, a time tag and its elements. -/
theorem wellFormed_bundle {element : Delivery} (formed : element.WellFormed)
    (head : bundleHead.isPrefixOf element.wire) :
    ∃ time elements, element = .bundle time elements ∧ WellFormedAll elements ∧ 16 ≤ element.wire.length
      ∧ bundleElements element.wire 16 = .ok (elements.map Delivery.wire) := by
  cases element with
  | message packet => exact absurd (List.isPrefixOf_iff_prefix.mp head) (not_bundleHead formed.1 formed.2)
  | bundle time elements =>
      obtain ⟨eight, each⟩ := formed
      have front : (bundleHead ++ time).length = 16 := by
        rw [List.length_append, eight]
        rfl
      have long : 16 ≤ (Delivery.bundle time elements).wire.length := by
        rw [Delivery.wire, List.length_append, front]
        exact Nat.le_add_right _ _
      refine ⟨time, elements, rfl, each, long, ?_⟩
      apply bundleElements_complete long
      · rw [← wires_eq, Delivery.wire, ← front, List.drop_left]
      · intro raw member
        obtain ⟨element, among, rfl⟩ := List.mem_map.mp member
        obtain ⟨formed, small⟩ := (wellFormedAll_iff elements).mp each element among
        exact ⟨wire_pos element, dvd_wire element formed, small⟩

/-- Well-formed elements behind a header and a time tag are a bundle. -/
theorem bundle_wellFormed {current : Bytes} {elements : List Delivery} (aligned : 4 ∣ current.length)
    (head : bundleHead.isPrefixOf current) (long : 16 ≤ current.length)
    (read : bundleElements current 16 = .ok (elements.map Delivery.wire))
    (formed : ∀ element ∈ elements, element.WellFormed) :
    ∃ time, (Delivery.bundle time elements).WellFormed ∧ (Delivery.bundle time elements).wire = current := by
  obtain ⟨body, sizes⟩ := bundleElements_sound aligned (by decide) long read
  obtain ⟨rest, rfl⟩ := List.isPrefixOf_iff_prefix.mp head
  have eight : bundleHead.length = 8 := rfl
  rw [List.length_append, eight] at long
  refine ⟨rest.take 8, ⟨?_, ?_⟩, ?_⟩
  · rw [List.length_take]
    omega
  · rw [wellFormedAll_iff]
    intro element member
    exact ⟨formed element member, (sizes _ (List.mem_map_of_mem member)).2.2⟩
  · have behind : rest.drop 8 = wires elements := by
      rw [wires_eq, ← body, List.drop_append, eight]
      rfl
    rw [Delivery.wire, ← behind, List.append_assoc, List.take_append_drop]

/-- A stack is delivered where its parts are well-formed, as the messages of one after another. -/
theorem deliver_ok (pending : List Bytes) (messages : List Packet) :
    deliver pending = .ok messages ↔ ∃ elements : List Delivery, (∀ element ∈ elements, element.WellFormed)
      ∧ elements.map Delivery.wire = pending ∧ messagesOf elements = messages := by
  induction pending using unwrap.induct generalizing messages with
  | case1 =>
      rw [deliver_nil]
      constructor
      · intro none
        exact ⟨[], by simp, rfl, Except.ok.inj none⟩
      · rintro ⟨elements, -, none, rfl⟩
        obtain rfl := List.map_eq_nil_iff.mp none
        rfl
  | case2 current pending unaligned =>
      rw [deliver_unaligned unaligned]
      constructor
      · intro done
        cases done
      · rintro ⟨elements, formed, split, -⟩
        obtain ⟨first, rest, rfl, rfl, -⟩ := List.map_eq_cons_iff.mp split
        have aligned := dvd_wire first (formed first List.mem_cons_self)
        omega
  | case3 current pending aligned plain raws problem unwrapped ih =>
      rw [deliver_message aligned plain]
      constructor
      · intro done
        cases decoded : decodeOsc current with
        | error problem =>
            rw [decoded] at done
            cases done
        | ok packet =>
            cases others : deliver pending with
            | error problem =>
                rw [decoded, others] at done
                cases done
            | ok rest =>
                rw [decoded, others] at done
                obtain rfl := Except.ok.inj done
                obtain ⟨elements, each, rfl, rfl⟩ := (ih rest).mp others
                obtain ⟨formed, rfl⟩ := decodeOsc_sound decoded
                have other : packet.path ≠ "#bundle" := by
                  intro same
                  apply plain
                  rw [List.isPrefixOf_iff_prefix]
                  exact bundleHead_prefix same
                refine ⟨.message packet :: elements, ?_, rfl, rfl⟩
                intro element member
                rcases List.mem_cons.mp member with rfl | member
                · exact ⟨formed, other⟩
                · exact each element member
      · rintro ⟨elements, formed, split, rfl⟩
        obtain ⟨first, rest, rfl, rfl, rfl⟩ := List.map_eq_cons_iff.mp split
        obtain ⟨packet, rfl, well⟩ := wellFormed_message (formed first List.mem_cons_self) plain
        have others := (ih (messagesOf rest)).mpr
          ⟨rest, fun element member => formed element (List.mem_cons_of_mem _ member), rfl, rfl⟩
        rw [Delivery.wire, decodeOsc_complete well, others]
        rfl
  | case4 current pending aligned head short =>
      rw [deliver_header aligned head short]
      constructor
      · intro done
        cases done
      · rintro ⟨elements, formed, split, -⟩
        obtain ⟨first, rest, rfl, rfl, -⟩ := List.map_eq_cons_iff.mp split
        obtain ⟨time, inner, -, -, long, -⟩ := wellFormed_bundle (formed first List.mem_cons_self) (not_not.mp head)
        omega
  | case5 current pending aligned head long problem read =>
      rw [deliver_framing aligned head long read]
      constructor
      · intro done
        cases done
      · rintro ⟨elements, formed, split, -⟩
        obtain ⟨first, rest, rfl, rfl, -⟩ := List.map_eq_cons_iff.mp split
        obtain ⟨time, inner, -, -, -, framed⟩ :=
          wellFormed_bundle (formed first List.mem_cons_self) (not_not.mp head)
        rw [read] at framed
        cases framed
  | case6 current pending aligned head long raws read ih =>
      rw [deliver_elements aligned head long read, ih]
      constructor
      · rintro ⟨elements, formed, split, rfl⟩
        obtain ⟨inner, rest, rfl, rfl, rfl⟩ := List.map_eq_append_iff.mp split
        obtain ⟨time, well, wire⟩ := bundle_wellFormed (by omega) (not_not.mp head) (by omega) read
          fun element member => formed element (List.mem_append_left _ member)
        refine ⟨.bundle time inner :: rest, ?_, ?_, ?_⟩
        · intro element member
          rcases List.mem_cons.mp member with rfl | member
          · exact well
          · exact formed element (List.mem_append_right _ member)
        · rw [List.map_cons, wire]
        · rw [messagesOf, Delivery.messages, messagesOf_append]
      · rintro ⟨elements, formed, split, rfl⟩
        obtain ⟨first, rest, rfl, rfl, rfl⟩ := List.map_eq_cons_iff.mp split
        obtain ⟨time, inner, rfl, each, -, framed⟩ :=
          wellFormed_bundle (formed first List.mem_cons_self) (not_not.mp head)
        rw [read] at framed
        obtain rfl := Except.ok.inj framed
        refine ⟨inner ++ rest, ?_, List.map_append, ?_⟩
        · intro element member
          rcases List.mem_append.mp member with member | member
          · exact ((wellFormedAll_iff inner).mp each element member).1
          · exact formed element (List.mem_cons_of_mem _ member)
        · rw [messagesOf, Delivery.messages, messagesOf_append]

/-! ### What a stack does not deliver -/

theorem unpackWord_isSome (data : Bytes) : (unpackWord data).isSome ↔ 4 ≤ data.length := by
  match data with
  | [] => simp [unpackWord]
  | [_] => simp [unpackWord]
  | [_, _] => simp [unpackWord]
  | [_, _, _] => simp [unpackWord]
  | _ :: _ :: _ :: _ :: _ => simp [unpackWord]

theorem unpackFrom_word {data : Bytes} {offset : ℕ} {word : BitVec 32}
    (unpacked : unpackWord (data.drop offset) = some word) : unpackFrom data offset = .ok word := by
  rw [unpackFrom, unpacked]

/-- The body of a bundle has a fault in its first size, in its first element, or behind it. -/
theorem brokenElements_cases {body : Bytes} {word : BitVec 32} (unpacked : unpackWord body = some word) :
    BrokenElements body ↔ BadSize body word.toInt ∨ ¬BadSize body word.toInt
      ∧ (Broken (slice body 4 (4 + word.toInt.toNat)) ∨ BrokenElements (body.drop (4 + word.toInt.toNat))) := by
  constructor
  · rintro (⟨found, bad⟩ | ⟨found, good, broken⟩ | ⟨found, good, broken⟩)
    · rw [found] at unpacked
      obtain rfl := Option.some_inj.mp unpacked
      exact Or.inl bad
    · rw [found] at unpacked
      obtain rfl := Option.some_inj.mp unpacked
      exact Or.inr ⟨good, Or.inl broken⟩
    · rw [found] at unpacked
      obtain rfl := Option.some_inj.mp unpacked
      exact Or.inr ⟨good, Or.inr broken⟩
  · rintro (bad | ⟨good, broken | broken⟩)
    · exact .size unpacked bad
    · exact .here unpacked good broken
    · exact .later unpacked good broken

/-- Elements that cannot be told apart have a bad size, or there is a fault in one of them. -/
theorem brokenElements_iff {current : Bytes} (offset : ℕ) (inside : offset ≤ current.length) :
    BrokenElements (current.drop offset) ↔ (∃ problem, bundleElements current offset = .error problem)
      ∨ ∃ raws, bundleElements current offset = .ok raws ∧ ∃ raw ∈ raws, Broken raw := by
  induction left : current.length - offset using Nat.strong_induction_on generalizing offset with
  | _ left ih =>
    have some := unpackWord_isSome (current.drop offset)
    rw [List.length_drop] at some
    cases unpacked : unpackWord (current.drop offset) with
    | none =>
        -- nothing is left
        rw [unpacked] at some
        have short : ¬offset + 4 ≤ current.length := fun room => Bool.false_ne_true (some.mpr (by omega))
        have read : bundleElements current offset = .ok [] := by
          rw [bundleElements, if_neg short]
          rfl
        rw [read]
        constructor
        · rintro (⟨found, -⟩ | ⟨found, -, -⟩ | ⟨found, -, -⟩)
          all_goals
            rw [unpacked] at found
            cases found
        · rintro (⟨problem, failed⟩ | ⟨raws, done, raw, member, -⟩)
          · cases failed
          · obtain rfl := Except.ok.inj done
            cases member
    | some word =>
        rw [unpacked] at some
        have room : 4 ≤ current.length - offset := some.mp rfl
        have bad : BadSize (current.drop offset) word.toInt
            ↔ word.toInt ≤ 0 ∨ word.toInt % 4 ≠ 0 ∨ current.length < offset + 4 + word.toInt := by
          rw [BadSize, List.length_drop]
          omega
        rw [brokenElements_cases unpacked, bad, bundleElements, if_pos (by omega), unpackFrom_word unpacked]
        simp only [bind, Except.bind]
        by_cases wrong : word.toInt ≤ 0 ∨ word.toInt % 4 ≠ 0 ∨ current.length < offset + 4 + word.toInt
        · rw [if_pos wrong]
          constructor
          · intro _
            exact Or.inl ⟨_, rfl⟩
          · intro _
            exact Or.inl wrong
        · rw [if_neg wrong]
          have part : slice (current.drop offset) 4 (4 + word.toInt.toNat)
              = slice current (offset + 4) (offset + 4 + word.toInt.toNat) := by
            rw [slice, slice, List.drop_drop, Nat.add_sub_cancel_left, Nat.add_sub_cancel_left]
          have behind : (current.drop offset).drop (4 + word.toInt.toNat)
              = current.drop (offset + 4 + word.toInt.toNat) := by
            rw [List.drop_drop, Nat.add_assoc]
          have rest := ih (current.length - (offset + 4 + word.toInt.toNat)) (by omega)
            (offset + 4 + word.toInt.toNat) (by omega) rfl
          have others (inner : Prop) : ((word.toInt ≤ 0 ∨ word.toInt % 4 ≠ 0
                ∨ current.length < offset + 4 + word.toInt)
              ∨ ¬(word.toInt ≤ 0 ∨ word.toInt % 4 ≠ 0 ∨ current.length < offset + 4 + word.toInt) ∧ inner)
              ↔ inner :=
            ⟨fun found => found.elim (fun bad => absurd bad wrong) And.right, fun found => Or.inr ⟨wrong, found⟩⟩
          rw [others, part, behind, rest]
          cases bundleElements current (offset + 4 + word.toInt.toNat) with
          | error problem =>
              constructor
              · intro _
                exact Or.inl ⟨problem, rfl⟩
              · intro _
                exact Or.inr (Or.inl ⟨problem, rfl⟩)
          | ok raws =>
              constructor
              · rintro (broken | ⟨problem, failed⟩ | ⟨others, same, raw, member, broken⟩)
                · exact Or.inr ⟨_, rfl, _, List.mem_cons_self, broken⟩
                · cases failed
                · obtain rfl := Except.ok.inj same
                  exact Or.inr ⟨_, rfl, raw, List.mem_cons_of_mem _ member, broken⟩
              · rintro (⟨problem, failed⟩ | ⟨others, same, raw, member, broken⟩)
                · cases failed
                · obtain rfl := Except.ok.inj same
                  rcases List.mem_cons.mp member with rfl | member
                  · exact Or.inl broken
                  · exact Or.inr (Or.inr ⟨raws, rfl, raw, member, broken⟩)

/-- A stack is refused where there is a fault in a part. -/
theorem deliver_error (pending : List Bytes) :
    (∃ problem, deliver pending = .error problem) ↔ ∃ raw ∈ pending, Broken raw := by
  induction pending using unwrap.induct with
  | case1 => simp [deliver_nil]
  | case2 current pending unaligned =>
      rw [deliver_unaligned unaligned]
      constructor
      · intro _
        exact ⟨current, List.mem_cons_self, .unaligned unaligned⟩
      · intro _
        exact ⟨_, rfl⟩
  | case3 current pending aligned plain raws problem unwrapped ih =>
      have other : ¬bundleHead <+: current := fun head => plain (List.isPrefixOf_iff_prefix.mpr head)
      rw [deliver_message aligned plain]
      cases decoded : decodeOsc current with
      | error problem =>
          constructor
          · intro _
            exact ⟨current, List.mem_cons_self, .malformed other decoded⟩
          · intro _
            exact ⟨problem, rfl⟩
      | ok packet =>
          have sound : ¬Broken current := by
            rintro (unaligned | ⟨-, malformed⟩ | ⟨head, -⟩ | ⟨head, -⟩)
            · exact aligned unaligned
            · rw [decoded] at malformed
              cases malformed
            · exact other head
            · exact other head
          have rest : (∃ raw ∈ current :: pending, Broken raw) ↔ ∃ raw ∈ pending, Broken raw := by
            simp [sound]
          rw [rest, ← ih]
          cases deliver pending with
          | error problem => exact ⟨fun _ => ⟨problem, rfl⟩, fun _ => ⟨problem, rfl⟩⟩
          | ok messages =>
              constructor
              · rintro ⟨problem, done⟩
                cases done
              · rintro ⟨problem, done⟩
                cases done
  | case4 current pending aligned head short =>
      rw [deliver_header aligned head short]
      constructor
      · intro _
        exact ⟨current, List.mem_cons_self, .header (List.isPrefixOf_iff_prefix.mp (not_not.mp head)) short⟩
      · intro _
        exact ⟨_, rfl⟩
  | case5 current pending aligned head long problem read =>
      rw [deliver_framing aligned head long read]
      constructor
      · intro _
        refine ⟨current, List.mem_cons_self, .bundle (List.isPrefixOf_iff_prefix.mp (not_not.mp head)) ?_⟩
        exact (brokenElements_iff 16 (by omega)).mpr (Or.inl ⟨problem, read⟩)
      · intro _
        exact ⟨_, rfl⟩
  | case6 current pending aligned head long raws read ih =>
      have prefixed := List.isPrefixOf_iff_prefix.mp (not_not.mp head)
      have inner : Broken current ↔ ∃ raw ∈ raws, Broken raw := by
        have elements := @brokenElements_iff current 16 (by omega)
        constructor
        · rintro (unaligned | ⟨plain, -⟩ | ⟨-, short⟩ | ⟨-, broken⟩)
          · exact absurd unaligned aligned
          · exact absurd prefixed plain
          · exact absurd short long
          · rcases elements.mp broken with ⟨problem, failed⟩ | ⟨raws', same, found⟩
            · rw [read] at failed
              cases failed
            · rw [read] at same
              obtain rfl := Except.ok.inj same
              exact found
        · intro found
          exact .bundle prefixed (elements.mpr (Or.inr ⟨raws, read, found⟩))
      rw [deliver_elements aligned head long read, ih]
      simp only [List.mem_append, List.mem_cons, or_and_right, exists_or, exists_eq_left, inner]

/-- **Bundles are unwrapped exactly.** Whatever the bytes, the iteration ends, and what it decodes are the messages of
the delivery the bytes are, depth first in wire order, every byte in its place; it raises where there is a bad size,
an unaligned or truncated element or a malformed message at some depth, and only there. -/
theorem deliveryExact (data : Bytes) :
    (∀ messages, decodeDelivery data = .ok messages ↔ ∃ delivery : Delivery, delivery.WellFormed
      ∧ delivery.wire = data ∧ delivery.messages = messages)
    ∧ ((∃ problem, decodeDelivery data = .error problem) ↔ Broken data) := by
  have single : decodeDelivery data = deliver [data] := rfl
  rw [single]
  refine ⟨?_, ?_⟩
  · intro messages
    rw [deliver_ok]
    constructor
    · rintro ⟨elements, formed, split, rfl⟩
      obtain ⟨element, rest, rfl, rfl, none⟩ := List.map_eq_cons_iff.mp split
      obtain rfl := List.map_eq_nil_iff.mp none
      refine ⟨element, formed element List.mem_cons_self, rfl, ?_⟩
      rw [messagesOf, messagesOf, List.append_nil]
    · rintro ⟨delivery, formed, rfl, rfl⟩
      refine ⟨[delivery], ?_, rfl, ?_⟩
      · intro element member
        rw [List.mem_singleton.mp member]
        exact formed
      · rw [messagesOf, messagesOf, List.append_nil]
  · rw [deliver_error]
    simp

end OscmixDesk.Osc
