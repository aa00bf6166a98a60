/-
**Patterns of Python's `re`, as far as sequences of character classes go.**

A pattern is a list of pieces: a character of a class, a run of them, or an anchor of a line. A run takes
as much as it can, or as little, and gives back or takes more as long as what follows it does not match;
some pieces are groups. `matchHere` is the first match at a place, in that order; `findall` goes over a
text from match to match, and `remove` is `sub("", text)`.
-/

import Mathlib.Data.List.Basic

namespace OscmixDesk.Patterns

/-- A piece of a pattern; `^` and `$` are those of a line. -/
inductive Item
  | one (accepts : Char → Bool)
  | many (accepts : Char → Bool) (least : ℕ) (lazy : Bool)
  | lineStart
  | lineEnd

structure Piece where
  item : Item
  group : Bool := false

/-- A match: what it covers, and the texts of its groups. -/
structure Match where
  text : List Char := []
  groups : List (List Char) := []
  deriving DecidableEq, Repr

/-- The match, with a piece before it. -/
def Match.after (found : Match) (group : Bool) (text : List Char) : Match :=
  ⟨text ++ found.text, if group then text :: found.groups else found.groups⟩

/-- The lengths that a run may have where so many characters are there, in the order they are tried. -/
def sizes (least : ℕ) (lazy : Bool) (there : ℕ) : List ℕ :=
  let sizes := List.range' least (there + 1 - least)
  if lazy then sizes else sizes.reverse

/-- The first match at a place, after the character before it. -/
def matchHere : List Piece → Option Char → List Char → Option Match
  | [], _, _ => some {}
  | piece :: pieces, previous, text =>
      match piece.item with
      | .lineStart => if previous.all (· == '\n') then matchHere pieces previous text else none
      | .lineEnd => if text.head?.all (· == '\n') then matchHere pieces previous text else none
      | .one accepts =>
          match text with
          | [] => none
          | c :: rest =>
              if accepts c then (matchHere pieces (some c) rest).map (·.after piece.group [c]) else none
      | .many accepts least lazy =>
          (sizes least lazy (text.takeWhile accepts).length).findSome? fun size =>
            (matchHere pieces ((text.take size).getLast?.or previous) (text.drop size)).map
              (·.after piece.group (text.take size))

/-- Goes over a text from match to match: the texts between them, and the matches. The last match reaches
over the next `skip` characters. A match of nothing is passed over. -/
def scan (pattern : List Piece) : ℕ → Option Char → List Char → List (Char ⊕ Match)
  | _, _, [] => []
  | skip + 1, _, c :: rest => scan pattern skip (some c) rest
  | 0, previous, c :: rest =>
      match matchHere pattern previous (c :: rest) with
      | none => .inl c :: scan pattern 0 (some c) rest
      | some found =>
          if found.text = [] then .inl c :: scan pattern 0 (some c) rest
          else .inr found :: scan pattern (found.text.length - 1) (some c) rest

/-- `re.findall`, with the groups of each match. -/
def findall (pattern : List Piece) (text : List Char) : List (List (List Char)) :=
  (scan pattern 0 none text).filterMap fun part => part.getRight?.map Match.groups

/-- `re.sub("", text)`. -/
def remove (pattern : List Piece) (text : List Char) : List Char :=
  (scan pattern 0 none text).filterMap Sum.getLeft?

/-- A text as a pattern. -/
def literal (text : List Char) : List Piece :=
  text.map fun c => { item := .one (· == c) }

/-! ### What a match says -/

theorem matchHere_one {piece : Piece} {pieces : List Piece} {accepts : Char → Bool} {previous : Option Char}
    {text : List Char} {found : Match} (one : piece.item = .one accepts)
    (matched : matchHere (piece :: pieces) previous text = some found) :
    ∃ c rest later, text = c :: rest ∧ accepts c = true ∧ matchHere pieces (some c) rest = some later
      ∧ found = later.after piece.group [c] := by
  unfold matchHere at matched
  rw [one] at matched
  cases text with
  | nil => cases matched
  | cons c rest =>
      dsimp only at matched
      split_ifs at matched with accepted
      obtain ⟨later, tail, rfl⟩ := Option.map_eq_some_iff.mp matched
      exact ⟨c, rest, later, rfl, accepted, tail, rfl⟩

theorem matchHere_many {piece : Piece} {pieces : List Piece} {accepts : Char → Bool} {least : ℕ} {lazy : Bool}
    {previous : Option Char} {text : List Char} {found : Match} (many : piece.item = .many accepts least lazy)
    (matched : matchHere (piece :: pieces) previous text = some found) :
    ∃ size later, least ≤ size ∧ size ≤ (text.takeWhile accepts).length
      ∧ matchHere pieces ((text.take size).getLast?.or previous) (text.drop size) = some later
      ∧ found = later.after piece.group (text.take size) := by
  unfold matchHere at matched
  rw [many] at matched
  obtain ⟨size, member, tried⟩ := List.exists_of_findSome?_eq_some matched
  obtain ⟨later, tail, rfl⟩ := Option.map_eq_some_iff.mp tried
  have bounds : least ≤ size ∧ size ≤ (text.takeWhile accepts).length := by
    have inside : size ∈ List.range' least ((text.takeWhile accepts).length + 1 - least) := by
      unfold sizes at member
      dsimp only at member
      split_ifs at member
      · exact member
      · exact List.mem_reverse.mp member
    rw [List.mem_range'_1] at inside
    omega
  exact ⟨size, later, bounds.1, bounds.2, tail, rfl⟩

/-- What `scan` finds was matched at a place of the text. -/
theorem mem_scan {pattern : List Piece} {skip : ℕ} {previous : Option Char} {text : List Char} {found : Match}
    (member : Sum.inr found ∈ scan pattern skip previous text) :
    ∃ prior here, text = prior ++ here
      ∧ matchHere pattern (prior.getLast?.or previous) here = some found := by
  induction text generalizing skip previous with
  | nil => simp [scan] at member
  | cons c rest ih =>
      have further {skip : ℕ} (later : Sum.inr found ∈ scan pattern skip (some c) rest) :
          ∃ prior here, c :: rest = prior ++ here
            ∧ matchHere pattern (prior.getLast?.or previous) here = some found := by
        obtain ⟨prior, here, rfl, matched⟩ := ih later
        have last : (c :: prior).getLast?.or previous = prior.getLast?.or (some c) := by
          rw [List.getLast?_cons]
          cases prior.getLast? with
          | none => rfl
          | some _ => rfl
        exact ⟨c :: prior, here, rfl, last ▸ matched⟩
      cases skip with
      | succ skip => exact further (by simpa [scan] using member)
      | zero =>
          unfold scan at member
          cases matched : matchHere pattern previous (c :: rest) with
          | none =>
              rw [matched] at member
              exact further (by simpa using member)
          | some first =>
              rw [matched] at member
              dsimp only at member
              split_ifs at member
              · exact further (by simpa using member)
              · rcases List.mem_cons.mp member with same | later
                · obtain rfl := Sum.inr.inj same
                  exact ⟨[], c :: rest, rfl, matched⟩
                · exact further later

theorem mem_findall {pattern : List Piece} {text : List Char} {groups : List (List Char)}
    (member : groups ∈ findall pattern text) :
    ∃ prior here, text = prior ++ here
      ∧ (matchHere pattern prior.getLast? here).map Match.groups = some groups := by
  obtain ⟨part, there, found⟩ := List.mem_filterMap.mp member
  obtain ⟨first, right, rfl⟩ := Option.map_eq_some_iff.mp found
  obtain rfl := Sum.getRight?_eq_some_iff.mp right
  obtain ⟨prior, here, split, matched⟩ := mem_scan there
  rw [Option.or_none] at matched
  exact ⟨prior, here, split, by rw [matched]; rfl⟩

/-! ### The groups of a match -/

section Groups

variable {pieces : List Piece} {previous : Option Char} {text rest : List Char} {groups : List (List Char)}

theorem matchHere_lineStart (start : previous.all (· == '\n') = true) :
    matchHere ({ item := .lineStart } :: pieces) previous text = matchHere pieces previous text :=
  if_pos start

theorem groups_literal :
    (matchHere (literal text ++ pieces) previous (text ++ rest)).map Match.groups
      = (matchHere pieces (text.getLast?.or previous) rest).map Match.groups := by
  induction text generalizing previous with
  | nil => rfl
  | cons c text ih =>
      have last : (c :: text).getLast?.or previous = text.getLast?.or (some c) := by
        rw [List.getLast?_cons]
        cases text.getLast? with
        | none => rfl
        | some _ => rfl
      rw [last, ← ih]
      show Option.map _ (if (c == c) = true then _ else none) = _
      rw [if_pos (beq_self_eq_true c), Option.map_map]
      rfl

/-- No character is matched where it does not stand. -/
theorem matchHere_elsewhere {c : Char} (apart : text.head? ≠ some c) :
    matchHere (literal [c] ++ pieces) previous text = none := by
  cases text with
  | nil => rfl
  | cons d rest => exact if_neg fun same => apart (congrArg some (eq_of_beq same))

/-- A greedy run takes what is there, if what follows does not match behind any more of it. -/
theorem groups_run {accepts : Char → Bool} {least : ℕ} {group : Bool} (all : text.all accepts = true)
    (enough : least ≤ text.length)
    (longer : ∀ more after, rest = more ++ after → more ≠ [] → more.all accepts = true →
      ∀ previous, matchHere pieces previous after = none)
    (tail : (matchHere pieces (text.getLast?.or previous) rest).map Match.groups = some groups) :
    (matchHere ({ item := .many accepts least false, group } :: pieces) previous (text ++ rest)).map Match.groups
      = some (if group then text :: groups else groups) := by
  have run : (text ++ rest).takeWhile accepts = text ++ rest.takeWhile accepts :=
    List.takeWhile_append_of_pos (List.all_eq_true.mp all)
  set there := (rest.takeWhile accepts).length with there_eq
  have split : sizes least false (text ++ rest.takeWhile accepts).length
      = (List.range' (text.length + 1) there).reverse
        ++ text.length :: (List.range' least (text.length - least)).reverse := by
    have sum : text.length + there + 1 - least = (text.length - least + 1) + there := by omega
    have first : text.length + 1 = least + (text.length - least + 1) := by omega
    have last : least + (text.length - least) = text.length := by omega
    unfold sizes
    dsimp only
    rw [if_neg Bool.false_ne_true, List.length_append, ← there_eq, sum, ← List.range'_append_1,
      List.reverse_append, ← first, List.range'_1_concat, last, List.reverse_append]
    rfl
  have none' : (List.range' (text.length + 1) there).reverse.findSome? (fun size =>
      (matchHere pieces (((text ++ rest).take size).getLast?.or previous) ((text ++ rest).drop size)).map
        (·.after group ((text ++ rest).take size))) = none := by
    refine List.findSome?_eq_none_iff.mpr fun size member => ?_
    have bounds := List.mem_range'_1.mp (List.mem_reverse.mp member)
    obtain ⟨more, rfl⟩ : ∃ more, size = text.length + more := ⟨size - text.length, by omega⟩
    have inside : more ≤ there := by omega
    have start : (rest.takeWhile accepts).take more = rest.take more := by
      have whole : rest.takeWhile accepts = rest.take there :=
        List.prefix_iff_eq_take.mp (List.takeWhile_prefix accepts)
      rw [whole, List.take_take, Nat.min_eq_left inside]
    have within : (rest.take more).all accepts = true := by
      refine List.all_eq_true.mpr fun c member => ?_
      rw [← start] at member
      exact List.all_eq_true.mp List.all_takeWhile c (List.mem_of_mem_take member)
    have some' : rest.take more ≠ [] := by
      rw [← start]
      refine List.ne_nil_of_length_pos ?_
      rw [List.length_take]
      omega
    rw [List.drop_append, List.drop_eq_nil_of_le (by omega), Nat.add_sub_cancel_left, List.nil_append,
      longer (rest.take more) (rest.drop more) (List.take_append_drop more rest).symm some' within]
    rfl
  unfold matchHere
  dsimp only
  rw [run, split, List.findSome?_append, none', Option.none_or, List.findSome?_cons, List.take_left, List.drop_left]
  obtain ⟨found, matched, rfl⟩ := Option.map_eq_some_iff.mp tail
  rw [matched]
  cases group with
  | false => rfl
  | true => rfl

/-- No more of a run is there where the next character is none of it. -/
theorem no_more {accepts : Char → Bool} (ends : rest.head?.all (fun c => !accepts c) = true) {more after : List Char}
    (split : rest = more ++ after) (some' : more ≠ []) (within : more.all accepts = true) : False := by
  cases more with
  | nil => exact some' rfl
  | cons c more =>
      rw [split, List.cons_append, List.head?_cons, Option.all_some, Bool.not_eq_true'] at ends
      rw [List.all_cons, ends] at within
      cases within

theorem groups_passed {accepts : Char → Bool} {least : ℕ} (all : text.all accepts = true)
    (enough : least ≤ text.length) (ends : rest.head?.all (fun c => !accepts c) = true)
    (tail : (matchHere pieces (text.getLast?.or previous) rest).map Match.groups = some groups) :
    (matchHere ({ item := .many accepts least false } :: pieces) previous (text ++ rest)).map Match.groups
      = some groups :=
  groups_run all enough (fun _ _ split some' within => (no_more ends split some' within).elim) tail

theorem groups_taken {accepts : Char → Bool} {least : ℕ} (all : text.all accepts = true)
    (enough : least ≤ text.length) (ends : rest.head?.all (fun c => !accepts c) = true)
    (tail : (matchHere pieces (text.getLast?.or previous) rest).map Match.groups = some groups) :
    (matchHere ({ item := .many accepts least false, group := true } :: pieces) previous (text ++ rest)).map
      Match.groups = some (text :: groups) :=
  groups_run all enough (fun _ _ split some' within => (no_more ends split some' within).elim) tail

end Groups

end OscmixDesk.Patterns
