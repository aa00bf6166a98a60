/-
**The records of a desk, stored and read again.**

A stored file is read row by row, and one row out of shape voids all of it. So what a reader makes of a file the
writer stored is decided entry by entry: entries it read before come back as they were (`decode_encode`), and a
new one does if it is `Storable`:

* `storable_iff` — the entries whose row is read back with the same tags and arguments;
* `parseRows_ok`, `parseRows_total` — a table is read when every row is;
* `recordsClosed` — when a stored file is accepted, and is the record with the new entries.
-/

import OscmixDesk.Foundation.Checks
import OscmixDesk.Foundation.LastWins
import OscmixDesk.Model.Records
import OscmixDesk.Proof.Wire

namespace OscmixDesk.Records

open Checks

/-! ### Arguments -/

/-- A value of its tag. -/
def OfKind (tag : Char) (value : Value) : Prop :=
  (tag = 'f' ∧ ∃ number, value = .float number) ∨ (tag = 'i' ∧ ∃ number, value = .int number)
    ∨ (tag = 's' ∧ ∃ text, value = .str text)

/-- A value its tag carries: one of its kind, or for a float an integer that is one. -/
def Carried (tag : Char) (value : Value) : Prop :=
  OfKind tag value ∨ (tag = 'f' ∧ ∃ number : ℤ, value = .int number ∧ binary64 number = .finite number)

/-- Python's `==`, with one not-a-number the same as another. -/
def Same : Value → Value → Prop
  | .int first, .int second => first = second
  | .int first, .float second => second = .finite first
  | .float first, .int second => first = .finite second
  | .float first, .float second => first = second
  | .str first, .str second => first = second
  | _, _ => False

def SameArgs : Args → Args → Prop :=
  List.Forall₂ Same

/-- As many arguments as tags, some, and each carried by its tag. -/
def Storable (tags : String) (args : Args) : Prop :=
  tags ≠ "" ∧ List.Forall₂ Carried tags.toList args

/-- As many arguments as tags, some, and each of its kind. -/
def Kinds (tags : String) (args : Args) : Prop :=
  tags ≠ "" ∧ List.Forall₂ OfKind tags.toList args

theorem same_refl (value : Value) : Same value value := by
  cases value <;> rfl

theorem encodeValue_int (tag : Char) (number : ℤ) : encodeValue tag (.int number) = .int number := rfl

theorem decodeValue_float (number : ℤ) :
    decodeValue 'f' (.int number) = asFloat (binary64 number) := by
  unfold decodeValue
  rw [if_pos (Eq.refl 'f')]

theorem decodeValue_encodeValue {tag : Char} {value : Value} (kind : OfKind tag value) :
    decodeValue tag (encodeValue tag value) = .ok value := by
  rcases kind with ⟨rfl, number, rfl⟩ | ⟨rfl, number, rfl⟩ | ⟨rfl, text, rfl⟩
  · cases number with
    | finite value => rfl
    | infinite negative => cases negative <;> rfl
    | nan => rfl
  · rfl
  · rfl

theorem decodeValue_kind {tag : Char} {value : Json} {result : Value}
    (read : decodeValue tag value = .ok result) : OfKind tag result := by
  unfold decodeValue at read
  by_cases isFloat : tag = 'f'
  · rw [if_pos isFloat] at read
    left
    refine ⟨isFloat, ?_⟩
    cases value with
    | int number =>
        cases rounded : binary64 number with
        | finite exact =>
            simp only [rounded] at read
            exact ⟨_, (Except.ok.inj read).symm⟩
        | infinite negative =>
            simp only [rounded] at read
            cases read
        | nan =>
            simp only [rounded] at read
            cases read
    | float number => exact ⟨_, (Except.ok.inj read).symm⟩
    | str text =>
        cases named : Text.readFloat text.toList with
        | none =>
            simp only [named] at read
            cases read
        | some number =>
            simp only [named] at read
            exact ⟨_, (Except.ok.inj read).symm⟩
    | _ => cases read
  · rw [if_neg isFloat] at read
    right
    cases value with
    | int number =>
        dsimp only at read
        split_ifs at read with isInt
        exact Or.inl ⟨isInt, number, (Except.ok.inj read).symm⟩
    | str text =>
        dsimp only at read
        split_ifs at read with isText
        exact Or.inr ⟨isText, text, (Except.ok.inj read).symm⟩
    | _ => cases read

/-- A value is read back as the same one where its tag carries it, and nowhere else. -/
theorem carried_iff (tag : Char) (value : Value) :
    (∃ result, decodeValue tag (encodeValue tag value) = .ok result ∧ Same result value)
      ↔ Carried tag value := by
  constructor
  · rintro ⟨result, read, same⟩
    have kind := decodeValue_kind read
    by_cases isFloat : tag = 'f'
    · subst isFloat
      cases value with
      | int number =>
          right
          refine ⟨rfl, number, rfl, ?_⟩
          rw [encodeValue_int, decodeValue_float] at read
          revert read
          generalize binary64 number = rounded
          intro read
          cases rounded with
          | finite exact =>
              obtain rfl := Except.ok.inj read
              exact same
          | infinite negative => cases read
          | nan => cases read
      | float number => exact Or.inl (Or.inl ⟨rfl, number, rfl⟩)
      | str text =>
          obtain ⟨-, number, rfl⟩ | ⟨clash, -⟩ | ⟨clash, -⟩ := kind
          · exact same.elim
          · cases clash
          · cases clash
    · left
      have plain (number : PyFloat) : encodeValue tag (.float number) = .float number := by
        cases number with
        | finite value => rfl
        | infinite negative => exact if_neg isFloat
        | nan => exact if_neg isFloat
      cases value with
      | float number =>
          rw [plain] at read
          unfold decodeValue at read
          rw [if_neg isFloat] at read
          cases read
      | int number =>
          rcases kind with ⟨float, -⟩ | ⟨isInt, -⟩ | ⟨-, text, rfl⟩
          · exact absurd float isFloat
          · exact Or.inr (Or.inl ⟨isInt, number, rfl⟩)
          · exact same.elim
      | str text =>
          rcases kind with ⟨float, -⟩ | ⟨-, number, rfl⟩ | ⟨isText, -⟩
          · exact absurd float isFloat
          · exact same.elim
          · exact Or.inr (Or.inr ⟨isText, text, rfl⟩)
  · rintro (kind | ⟨rfl, number, rfl, exact⟩)
    · exact ⟨value, decodeValue_encodeValue kind, same_refl value⟩
    · refine ⟨.float (.finite number), ?_, rfl⟩
      rw [encodeValue_int, decodeValue_float, exact]
      rfl

/-! ### Argument lists -/

theorem decodeValues_encode {tags : List Char} {args : Args} (each : List.Forall₂ OfKind tags args) :
    decodeValues tags (tags.zipWith encodeValue args) = .ok args := by
  induction each with
  | nil => rfl
  | cons kind _ ih =>
      rw [List.zipWith_cons_cons, decodeValues, decodeValue_encodeValue kind, ih]
      rfl

theorem decodeValues_kinds {tags : List Char} {values : List Json} {args : Args}
    (length : tags.length = values.length) (read : decodeValues tags values = .ok args) :
    List.Forall₂ OfKind tags args := by
  induction tags generalizing values args with
  | nil =>
      obtain rfl := Except.ok.inj read
      exact List.Forall₂.nil
  | cons tag tags ih =>
      cases values with
      | nil => simp at length
      | cons value values =>
          rw [List.length_cons, List.length_cons] at length
          rw [decodeValues, bind_eq_ok] at read
          obtain ⟨first, here, rest⟩ := read
          obtain ⟨others, there, same⟩ := bind_eq_ok.mp rest
          obtain rfl := Except.ok.inj same
          exact List.Forall₂.cons (decodeValue_kind here) (ih (by omega) there)

/-- Arguments come back the same where each is carried by its tag, and nowhere else. -/
theorem decodeValues_carried {tags : List Char} {args : Args} (length : tags.length = args.length) :
    (∃ result, decodeValues tags (tags.zipWith encodeValue args) = .ok result ∧ SameArgs result args)
      ↔ List.Forall₂ Carried tags args := by
  induction tags generalizing args with
  | nil =>
      obtain rfl := List.length_eq_zero_iff.mp length.symm
      exact ⟨fun _ => List.Forall₂.nil, fun _ => ⟨[], rfl, List.Forall₂.nil⟩⟩
  | cons tag tags ih =>
      cases args with
      | nil => simp at length
      | cons value args =>
          rw [List.length_cons, List.length_cons] at length
          rw [List.forall₂_cons, ← carried_iff, ← ih (by omega), List.zipWith_cons_cons, decodeValues]
          constructor
          · rintro ⟨result, read, same⟩
            obtain ⟨first, here, rest⟩ := bind_eq_ok.mp read
            obtain ⟨others, there, equal⟩ := bind_eq_ok.mp rest
            obtain rfl := Except.ok.inj equal
            cases same with
            | cons same sames => exact ⟨⟨first, here, same⟩, others, there, sames⟩
          · rintro ⟨⟨first, here, same⟩, others, there, sames⟩
            refine ⟨first :: others, ?_, List.Forall₂.cons same sames⟩
            rw [here, there]
            rfl

/-- Arguments of their kinds come back as they were. -/
theorem decode_encode {tags : String} {args : Args} (kinds : Kinds tags args) :
    decode (some (.str tags)) (some (.list (encode tags args))) = .ok (tags, args) := by
  obtain ⟨some, each⟩ := kinds
  have length : tags.toList.length = (encode tags args).length := by
    rw [encode, List.length_zipWith, ← each.length_eq, min_self]
  unfold decode
  dsimp only
  rw [if_neg (not_or.mpr ⟨not_not.mpr length, some⟩), encode, decodeValues_encode each]
  rfl

/-- What is read of a row is of its kinds. -/
theorem decode_kinds {tags : String} {table values : Option Json} {args : Args}
    (read : decode table values = .ok (tags, args)) : Kinds tags args := by
  unfold decode at read
  split at read
  · next spelled items =>
      split_ifs at read with wrong
      rw [not_or, not_not] at wrong
      obtain ⟨result, reads, same⟩ := bind_eq_ok.mp read
      obtain ⟨rfl, rfl⟩ := Prod.mk.inj (Except.ok.inj same)
      exact ⟨wrong.2, decodeValues_kinds wrong.1 reads⟩
  · cases read

theorem decode_tags {spelled tags : String} {values : Option Json} {args : Args}
    (read : decode (some (.str spelled)) values = .ok (tags, args)) : spelled = tags := by
  unfold decode at read
  split at read
  · next other items same =>
      split_ifs at read with wrong
      obtain ⟨result, -, equal⟩ := bind_eq_ok.mp read
      rw [← (Prod.mk.inj (Except.ok.inj equal)).1]
      exact Json.str.inj (Option.some_inj.mp same)
  · cases read

/-- A row is read back with its tags and the same arguments exactly where the entry is storable. -/
theorem storable_iff (tags : String) (args : Args) :
    (∃ result, decode (some (.str tags)) (some (.list (encode tags args))) = .ok (tags, result)
      ∧ SameArgs result args) ↔ Storable tags args := by
  unfold decode
  dsimp only
  have width : (encode tags args).length = min tags.toList.length args.length := List.length_zipWith
  constructor
  · rintro ⟨result, read, same⟩
    split_ifs at read with wrong
    rw [not_or, not_not] at wrong
    obtain ⟨values, reads, equal⟩ := bind_eq_ok.mp read
    obtain ⟨-, rfl⟩ := Prod.mk.inj (Except.ok.inj equal)
    have length : tags.toList.length = args.length := by
      have sizes := (decodeValues_kinds wrong.1 reads).length_eq
      rw [sizes, List.Forall₂.length_eq same]
    exact ⟨wrong.2, (decodeValues_carried length).mp ⟨values, reads, same⟩⟩
  · rintro ⟨some, each⟩
    have length : tags.toList.length = (encode tags args).length := by
      rw [width, ← each.length_eq, min_self]
    obtain ⟨result, reads, same⟩ := (decodeValues_carried each.length_eq).mpr each
    refine ⟨result, ?_, same⟩
    rw [if_neg (not_or.mpr ⟨not_not.mpr length, some⟩), encode, reads]
    rfl

/-! ### Tables -/

/-- Rows with distinct names are the `dict` they are read as. -/
theorem items_rowsOf (entries : Entries) : (dict (rowsOf entries)).items = rowsOf entries := by
  apply Keyed.items_ofList
  have names : (rowsOf entries).map Prod.fst
      = (entries.items.insertionSort fun first second => first.name ≤ second.name).map Entry.name := by
    rw [rowsOf, List.map_map]
    rfl
  rw [names]
  exact (((List.perm_insertionSort _ _).map Entry.name).nodup_iff).mpr entries.distinct

theorem length_rowsOf (entries : Entries) : (rowsOf entries).length = entries.items.length := by
  rw [rowsOf, List.length_map, List.length_insertionSort]

theorem mem_rowsOf (entries : Entries) (row : String × Json) :
    row ∈ rowsOf entries ↔ ∃ entry ∈ entries.items, rowOf entry = row := by
  rw [rowsOf, List.mem_map]
  constructor
  · rintro ⟨entry, member, same⟩
    exact ⟨entry, (List.perm_insertionSort _ _).mem_iff.mp member, same⟩
  · rintro ⟨entry, member, same⟩
    exact ⟨entry, (List.perm_insertionSort _ _).mem_iff.mpr member, same⟩

variable {admissible : String → Bool}

theorem parseRow_rowOf (entry : Entry) :
    parseRow admissible (rowOf entry) = if admissible entry.name then do
        let (tags, args) ← decode (some (.str entry.tags)) (some (.list (encode entry.tags entry.args)))
        return ⟨entry.name, tags, args, entry.stamp⟩
      else .error .value :=
  rfl

/-- The row of an entry is read with its name, its tags and its time. -/
theorem parseRow_rowOf_ok (entry held : Entry) :
    parseRow admissible (rowOf entry) = .ok held ↔ admissible entry.name ∧ ∃ args,
      decode (some (.str entry.tags)) (some (.list (encode entry.tags entry.args))) = .ok (entry.tags, args)
      ∧ held = ⟨entry.name, entry.tags, args, entry.stamp⟩ := by
  rw [parseRow_rowOf]
  constructor
  · intro read
    split_ifs at read with known
    obtain ⟨⟨tags, args⟩, decoded, equal⟩ := bind_eq_ok.mp read
    obtain rfl := Except.ok.inj equal
    obtain rfl : entry.tags = tags := decode_tags decoded
    exact ⟨known, args, decoded, rfl⟩
  · rintro ⟨known, args, decoded, rfl⟩
    rw [if_pos known, decoded]
    rfl

/-- A row is read as an entry under its name. -/
theorem parseRow_name {row : String × Json} {entry : Entry} (read : parseRow admissible row = .ok entry) :
    entry.name = row.1 ∧ admissible entry.name ∧ Kinds entry.tags entry.args := by
  obtain ⟨name, value⟩ := row
  unfold parseRow at read
  split at read
  · next name' fields same =>
      obtain ⟨rfl, rfl⟩ := Prod.mk.inj same
      split at read
      · next stamp _ =>
          split_ifs at read with known
          obtain ⟨⟨tags, args⟩, decoded, equal⟩ := bind_eq_ok.mp read
          obtain rfl := Except.ok.inj equal
          exact ⟨rfl, known, decode_kinds decoded⟩
      · cases read
  · cases read

/-- A table is read row by row. -/
theorem parseRows_eq_ok {table : List (String × Json)} {read : Entries} :
    parseRows admissible table = .ok read ↔ ∃ results,
      (dict table).items.mapM (parseRow admissible) = .ok results ∧ Keyed.ofList results = read := by
  rw [parseRows, bind_eq_ok]
  constructor
  · rintro ⟨results, rows, equal⟩
    exact ⟨results, rows, Except.ok.inj equal⟩
  · rintro ⟨results, rows, rfl⟩
    exact ⟨results, rows, rfl⟩

/-- A table that is read has every row as it is read alone, and no others. -/
theorem parseRows_ok {entries read : Entries} (done : parseRows admissible (rowsOf entries) = .ok read) :
    (∀ entry ∈ entries.items, ∃ held, parseRow admissible (rowOf entry) = .ok held
      ∧ read.get? entry.name = some held)
    ∧ ∀ name, entries.get? name = none → read.get? name = none := by
  obtain ⟨results, rows, rfl⟩ := parseRows_eq_ok.mp done
  have names : results.map Entry.name = (dict (rowsOf entries)).items.map Prod.fst :=
    map_mapM (fun row entry parsed => (parseRow_name parsed).1) rows
  have distinct : (results.map Entry.name).Nodup := by
    rw [names]
    exact (dict (rowsOf entries)).distinct
  have items : (Keyed.ofList results : Entries).items = results := Keyed.items_ofList distinct
  rw [items_rowsOf] at rows
  refine ⟨?_, ?_⟩
  · intro entry member
    obtain ⟨held, among, parsed⟩ :=
      exists_right (mapM_eq_ok.mp rows) ((mem_rowsOf entries _).mpr ⟨entry, member, rfl⟩)
    refine ⟨held, parsed, ?_⟩
    rw [Keyed.get?_eq_some, items]
    exact ⟨among, (parseRow_name parsed).1⟩
  · intro name missing
    rw [Keyed.get?_eq_none] at missing ⊢
    intro known
    obtain ⟨held, among, rfl⟩ := List.mem_map.mp known
    rw [items] at among
    obtain ⟨row, member, parsed⟩ := mem_of_mapM rows among
    obtain ⟨entry, source, rfl⟩ := (mem_rowsOf entries row).mp member
    apply missing
    rw [(parseRow_name parsed).1]
    exact List.mem_map_of_mem source

/-- A table is read when every row is. -/
theorem parseRows_total {entries : Entries}
    (each : ∀ entry ∈ entries.items, ∃ held, parseRow admissible (rowOf entry) = .ok held) :
    ∃ read, parseRows admissible (rowsOf entries) = .ok read := by
  obtain ⟨results, rows, -⟩ := @mapM_total _ _ _ (rowsOf entries) (parseRow admissible) (fun _ _ => True) (by
    intro row member
    obtain ⟨entry, source, rfl⟩ := (mem_rowsOf entries row).mp member
    obtain ⟨held, parsed⟩ := each entry source
    exact ⟨held, parsed, trivial⟩)
  exact ⟨Keyed.ofList results, parseRows_eq_ok.mpr ⟨results, by rw [items_rowsOf]; exact rows, rfl⟩⟩

/-- What a table was read as is of its kinds. -/
theorem parseRows_kinds {table : List (String × Json)} {read : Entries}
    (done : parseRows admissible table = .ok read) :
    ∀ entry ∈ read.items, admissible entry.name ∧ Kinds entry.tags entry.args := by
  obtain ⟨results, rows, rfl⟩ := parseRows_eq_ok.mp done
  intro entry held
  obtain ⟨row, -, parsed⟩ := mem_of_mapM rows (Keyed.mem_of_mem_ofList held)
  exact (parseRow_name parsed).2

/-! ### A record with new entries -/

/-- The record with the new entries: each as it was handed over, and everything else as it was. -/
structure Updated (prior : Entries) (later : List Entry) (read : Entries) : Prop where
  new : ∀ entry ∈ later, ∃ held, read.get? entry.name = some held ∧ held.tags = entry.tags
    ∧ SameArgs held.args entry.args ∧ held.stamp = entry.stamp
  old : ∀ name, (∀ entry ∈ later, entry.name ≠ name) → read.get? name = prior.get? name

section Update

variable {prior : Entries} {later : List Entry} (distinct : (later.map Entry.name).Nodup)

include distinct in
theorem get?_update_later {entry : Entry} (member : entry ∈ later) :
    (update prior later).get? entry.name = some entry := by
  rw [update, get?_foldl_put, lastOf_of_distinct distinct member, Option.some_or]

theorem get?_update_prior {name : String} (other : ∀ entry ∈ later, entry.name ≠ name) :
    (update prior later).get? name = prior.get? name := by
  rw [update, get?_foldl_put, lastOf_eq_none.mpr other, Option.none_or]

theorem mem_update {entry : Entry} (member : entry ∈ (update prior later).items) :
    entry ∈ later ∨ entry ∈ prior.items ∧ ∀ other ∈ later, other.name ≠ entry.name := by
  have found : (update prior later).get? entry.name = some entry :=
    (Keyed.get?_eq_some _ _ _).mpr ⟨member, rfl⟩
  rw [update, get?_foldl_put] at found
  cases last : lastOf Entry.name entry.name later with
  | none =>
      rw [last, Option.none_or] at found
      exact Or.inr ⟨((Keyed.get?_eq_some _ _ _).mp found).1, lastOf_eq_none.mp last⟩
  | some other =>
      rw [last, Option.some_or] at found
      obtain rfl := Option.some_inj.mp found
      exact Or.inl (mem_of_lastOf last)

include distinct in
/-- The table of the updated record is read as it exactly where every new entry has an admissible name and is
storable. -/
theorem parseRows_update (known : ∀ entry ∈ prior.items, admissible entry.name ∧ Kinds entry.tags entry.args) :
    (∃ read, parseRows admissible (rowsOf (update prior later)) = .ok read ∧ Updated prior later read)
      ↔ ∀ entry ∈ later, admissible entry.name ∧ Storable entry.tags entry.args := by
  have held (entry : Entry) (member : entry ∈ later) : entry ∈ (update prior later).items :=
    ((Keyed.get?_eq_some _ _ _).mp (get?_update_later distinct member)).1
  constructor
  · rintro ⟨read, done, updated⟩ entry member
    obtain ⟨first, parsed, found⟩ := (parseRows_ok done).1 entry (held entry member)
    obtain ⟨second, found', -, same, -⟩ := updated.new entry member
    rw [found] at found'
    obtain rfl := Option.some_inj.mp found'
    obtain ⟨named, args, decoded, rfl⟩ := (parseRow_rowOf_ok entry first).mp parsed
    exact ⟨named, (storable_iff _ _).mp ⟨args, decoded, same⟩⟩
  · intro storable
    -- an entry from before comes back as it was
    have kept (entry : Entry) (member : entry ∈ prior.items) :
        parseRow admissible (rowOf entry) = .ok entry := by
      obtain ⟨named, kinds⟩ := known entry member
      exact (parseRow_rowOf_ok entry entry).mpr ⟨named, entry.args, decode_encode kinds, rfl⟩
    obtain ⟨read, done⟩ := @parseRows_total admissible (update prior later) (by
      intro entry member
      rcases mem_update member with new | ⟨old, -⟩
      · obtain ⟨named, fits⟩ := storable entry new
        obtain ⟨args, decoded, -⟩ := (storable_iff _ _).mpr fits
        exact ⟨_, (parseRow_rowOf_ok entry _).mpr ⟨named, args, decoded, rfl⟩⟩
      · exact ⟨entry, kept entry old⟩)
    refine ⟨read, done, ?_, ?_⟩
    · intro entry member
      obtain ⟨first, parsed, found⟩ := (parseRows_ok done).1 entry (held entry member)
      obtain ⟨-, args, decoded, rfl⟩ := (parseRow_rowOf_ok entry first).mp parsed
      obtain ⟨args', decoded', same⟩ := (storable_iff _ _).mpr (storable entry member).2
      rw [decoded] at decoded'
      obtain ⟨-, rfl⟩ := Prod.mk.inj (Except.ok.inj decoded')
      exact ⟨_, found, rfl, same, rfl⟩
    · intro name other
      have before := @get?_update_prior prior later name other
      cases found : prior.get? name with
      | none =>
          rw [found] at before
          exact (parseRows_ok done).2 name before
      | some entry =>
          rw [found] at before
          obtain ⟨member, rfl⟩ := (Keyed.get?_eq_some _ _ _).mp before
          have old := ((Keyed.get?_eq_some _ _ _).mp found).1
          obtain ⟨first, parsed, here⟩ := (parseRows_ok done).1 entry member
          rw [kept entry old] at parsed
          obtain rfl := Except.ok.inj parsed
          exact here

end Update

/-! ### Files -/

section Files

variable {length : Json → ℕ} {stamp : ℚ → String} {file after : Option StoredFile} {replaces : Bool}

/-- A stored file is read where it is not too large. -/
theorem bounded_replaced (document : Json) :
    bounded (replaced length document)
      = if maxBytes < length document then .error .value else .ok document := by
  unfold bounded replaced
  by_cases large : maxBytes < length document <;> simp [large]

theorem parseJournal_document (journal : Entries) :
    parseJournal (journalDocument journal)
      = if maxEntries < (dict (rowsOf journal)).items.length then .error .value
        else parseRows isRegister (rowsOf journal) :=
  rfl

theorem readJournal_sound {journal : Entries} (sound : soundJournal file = .ok journal) :
    readJournal file = .ok journal := by
  rw [readJournal, sound]

theorem soundJournal_replaced (document : Json) :
    soundJournal (some (replaced length document))
      = if maxBytes < length document then .error .value else parseJournal document := by
  unfold soundJournal
  dsimp only
  rw [bounded_replaced]
  split_ifs <;> rfl

/-- What a journal holds has its names, and its kinds. -/
theorem soundJournal_kinds {journal : Entries} (sound : soundJournal file = .ok journal) :
    ∀ entry ∈ journal.items, isRegister entry.name ∧ Kinds entry.tags entry.args := by
  cases file with
  | none =>
      obtain rfl := Except.ok.inj sound
      intro entry member
      cases member
  | some file =>
      obtain ⟨document, -, parsed⟩ := bind_eq_ok.mp sound
      unfold parseJournal at parsed
      split at parsed
      · split_ifs at parsed
        split at parsed
        · split_ifs at parsed
          exact parseRows_kinds parsed
        · cases parsed
      · cases parsed

/-- Acknowledged writes are stored as the journal with them. -/
theorem recordWritten_stored {written : Keyed Written.name} {now : ℚ}
    (stored : recordWritten length stamp file written now replaces = .ok (true, after)) :
    ∃ journal, readJournal file = .ok journal
      ∧ (update journal (written.items.map (Written.entry (stamp now)))).items.length ≤ maxEntries
      ∧ after = some (replaced length
          (journalDocument (update journal (written.items.map (Written.entry (stamp now)))))) := by
  unfold recordWritten at stored
  split_ifs at stored with none
  · cases stored
  · obtain ⟨journal, read, rest⟩ := bind_eq_ok.mp stored
    dsimp only at rest
    split_ifs at rest with many done
    · cases rest
    · obtain ⟨-, rfl⟩ := Prod.mk.inj (Except.ok.inj rest)
      exact ⟨journal, read, not_lt.mp many, rfl⟩
    · cases rest

theorem parseSeen_document (seen : Seen) :
    parseSeen (seenDocument seen) = do
      let reports ← parseRows isNoted (rowsOf seen.reports)
      return ⟨reports, ← parseConnect (some (seen.connect.getD .null))⟩ :=
  rfl

theorem readSeen_sound {seen : Seen} (sound : soundSeen file = .ok seen) : readSeen file = .ok seen := by
  rw [readSeen, sound]

theorem parseConnect_sound {connect found : Option Json} (parsed : parseConnect connect = .ok found) :
    ∀ check, found = some check → soundCheck check = .ok true := by
  unfold parseConnect at parsed
  split at parsed
  · obtain rfl := Except.ok.inj parsed
    intro check found
    cases found
  · obtain rfl := Except.ok.inj parsed
    intro check found
    cases found
  · next check _ =>
      obtain ⟨sound, checked, rest⟩ := bind_eq_ok.mp parsed
      split_ifs at rest with good
      · obtain rfl := Except.ok.inj rest
        rintro check ⟨rfl⟩
        rw [checked, good]

/-- A connect check comes back as it was where it is sound. -/
theorem parseConnect_ok {connect : Option Json} :
    parseConnect (some (connect.getD .null)) = .ok connect
      ↔ ∀ check, connect = some check → soundCheck check = .ok true := by
  constructor
  · exact parseConnect_sound
  · intro sound
    cases connect with
    | none => rfl
    | some check =>
        have sound := sound check rfl
        cases check with
        | object pairs =>
            rw [Option.getD_some]
            unfold parseConnect
            dsimp only
            rw [sound]
            rfl
        | _ => cases sound

theorem soundSeen_replaced (document : Json) :
    soundSeen (some (replaced length document))
      = if maxBytes < length document then .error .value else parseSeen document := by
  unfold soundSeen
  dsimp only
  rw [bounded_replaced]
  split_ifs <;> rfl

/-- What a record holds has its names, its kinds, and a sound check. -/
theorem soundSeen_kinds {seen : Seen} (sound : soundSeen file = .ok seen) :
    (∀ entry ∈ seen.reports.items, isNoted entry.name ∧ Kinds entry.tags entry.args)
    ∧ ∀ check, seen.connect = some check → soundCheck check = .ok true := by
  cases file with
  | none =>
      obtain rfl := Except.ok.inj sound
      refine ⟨?_, ?_⟩
      · intro entry member
        cases member
      · intro check found
        cases found
  | some file =>
      obtain ⟨document, -, parsed⟩ := bind_eq_ok.mp sound
      unfold parseSeen at parsed
      split at parsed
      · split_ifs at parsed
        split at parsed
        · obtain ⟨reports, rows, rest⟩ := bind_eq_ok.mp parsed
          obtain ⟨connect, check, equal⟩ := bind_eq_ok.mp rest
          obtain rfl := Except.ok.inj equal
          exact ⟨parseRows_kinds rows, parseConnect_sound check⟩
        · cases parsed
      · cases parsed

/-- Reports are stored as the record with them. -/
theorem recordSeen_stored {reports : Keyed Sighting.name} {connect : Option Json}
    (stored : recordSeen length stamp file reports connect replaces = .ok (true, after)) :
    ∃ current, readSeen file = .ok current
      ∧ after = some (replaced length (seenDocument
          (updateSeen stamp current (reports.items.filter fun sighting => isNoted sighting.name) connect))) := by
  unfold recordSeen at stored
  dsimp only at stored
  split_ifs at stored with none
  · cases stored
  · obtain ⟨current, read, rest⟩ := bind_eq_ok.mp stored
    split_ifs at rest with done
    · obtain ⟨-, rfl⟩ := Prod.mk.inj (Except.ok.inj rest)
      exact ⟨current, read, rfl⟩
    · cases rest

end Files

/-! ### Decoded reports -/

/-- A report of a message that was decoded. -/
def Decoded (sighting : Sighting) : Prop :=
  ∃ data packet, Osc.decodeOsc data = .ok packet ∧ sighting = sightingOf packet sighting.time

theorem carried_valueOf {tag : Char} {value : Osc.Argument} (fits : value.Fits tag) :
    Carried tag (valueOf value) := by
  left
  rcases fits.cases with ⟨number, rfl, rfl, -⟩ | ⟨pattern, rfl, rfl⟩ | ⟨text, rfl, rfl, -⟩
  · exact Or.inr (Or.inl ⟨rfl, number, rfl⟩)
  · exact Or.inl ⟨rfl, floatOf pattern, rfl⟩
  · exact Or.inr (Or.inr ⟨rfl, text, rfl⟩)

/-- Of a decoded report the record can lack a type tag only. -/
theorem storable_decoded {sighting : Sighting} (decoded : Decoded sighting) :
    Storable sighting.tags sighting.args ↔ sighting.tags ≠ "" := by
  obtain ⟨data, packet, read, same⟩ := decoded
  have fit := (Osc.decodeOsc_sound read).1.args
  rw [same]
  refine ⟨And.left, fun some => ⟨some, ?_⟩⟩
  show List.Forall₂ Carried packet.tags.toList (packet.args.map valueOf)
  rw [List.forall₂_map_right_iff]
  exact fit.imp fun _ _ fits => carried_valueOf fits

theorem distinct_written (written : Keyed Written.name) (now : String) :
    ((written.items.map (Written.entry now)).map Entry.name).Nodup := by
  rw [List.map_map]
  exact written.distinct

theorem distinct_kept (reports : Keyed Sighting.name) (stamp : ℚ → String) :
    (((reports.items.filter fun sighting => isNoted sighting.name).map (Sighting.entry stamp)).map
      Entry.name).Nodup := by
  rw [List.map_map]
  exact (List.filter_sublist.map Sighting.name).nodup reports.distinct

/-- The report without arguments of CC Mix. -/
def silent : Osc.Packet := ⟨"/hardware/ccmix", "", []⟩

/-- **One report without a type tag, and the record is lost.** It is decoded and stored, and the file is ignored. -/
theorem tagless_report : ¬∀ (length : Json → ℕ) (stamp : ℚ → String) (file : Option StoredFile) (prior : Seen)
    (reports : Keyed Sighting.name) (after : Option StoredFile), soundSeen file = .ok prior →
    (∀ sighting ∈ reports.items, Decoded sighting) →
    recordSeen length stamp file reports none true = .ok (true, after) →
    ∃ read, soundSeen after = .ok read ∧ Updated prior.reports
      ((reports.items.filter fun sighting => isNoted sighting.name).map (Sighting.entry stamp)) read.reports := by
  intro closed
  have decoded : Osc.decodeOsc (Osc.packetBytes silent) = .ok silent :=
    Osc.decodeOsc_complete ⟨by decide, List.Forall₂.nil⟩
  obtain ⟨read, sound, -⟩ := closed (fun _ => 0) (fun _ => "") none ⟨Keyed.empty, none⟩
    (Keyed.empty.put (sightingOf silent 0)) _ rfl (by
      intro sighting member
      rw [Keyed.mem_put] at member
      rcases member with rfl | ⟨held, -⟩
      · exact ⟨_, silent, decoded, rfl⟩
      · cases held) rfl
  cases sound

/-- **What is stored is read again.** Where the readers accept a file and acknowledged writes, or decoded reports,
are stored into it, the stored file is accepted in full, as the record with the new entries and with nothing else
changed, exactly if every new entry is one its row can hold (a report: one with a type tag; a write: a register
path, as many arguments as tags, some, each carried by its tag), the connect check stored with reports is sound, and
the document is not larger than a reader takes. -/
theorem recordsClosed (length : Json → ℕ) (stamp : ℚ → String) (file : Option StoredFile) :
    (∀ prior written now replaces after, soundJournal file = .ok prior →
      recordWritten length stamp file written now replaces = .ok (true, after) →
      ((∃ read, soundJournal after = .ok read
          ∧ Updated prior (written.items.map (Written.entry (stamp now))) read)
        ↔ (∀ write ∈ written.items, isRegister write.name ∧ Storable write.tags write.args)
          ∧ length (journalDocument (update prior (written.items.map (Written.entry (stamp now)))))
            ≤ maxBytes))
    ∧ (∀ prior reports connect replaces after, soundSeen file = .ok prior →
      (∀ sighting ∈ reports.items, Decoded sighting) →
      recordSeen length stamp file reports connect replaces = .ok (true, after) →
      ((∃ read, soundSeen after = .ok read
          ∧ Updated prior.reports
            ((reports.items.filter fun sighting => isNoted sighting.name).map (Sighting.entry stamp)) read.reports
          ∧ read.connect = connect.or prior.connect)
        ↔ (∀ sighting ∈ reports.items, isNoted sighting.name → sighting.tags ≠ "")
          ∧ (∀ check, connect = some check → soundCheck check = .ok true)
          ∧ length (seenDocument (updateSeen stamp prior
              (reports.items.filter fun sighting => isNoted sighting.name) connect)) ≤ maxBytes)) := by
  refine ⟨?_, ?_⟩
  · intro prior written now replaces after sound stored
    obtain ⟨journal, read, few, rfl⟩ := recordWritten_stored stored
    rw [readJournal_sound sound] at read
    obtain rfl := Except.ok.inj read
    have rows := @parseRows_update isRegister prior _ (distinct_written written (stamp now))
      (soundJournal_kinds sound)
    have count : ¬maxEntries < (dict (rowsOf (update prior
        (written.items.map (Written.entry (stamp now)))))).items.length := by
      rw [items_rowsOf, length_rowsOf]
      exact not_lt.mpr few
    rw [List.forall_mem_map] at rows
    show _ ↔ (∀ write ∈ written.items, isRegister (Written.entry (stamp now) write).name
      ∧ Storable (Written.entry (stamp now) write).tags (Written.entry (stamp now) write).args) ∧ _
    rw [← rows, soundJournal_replaced]
    by_cases large : maxBytes < length (journalDocument (update prior
        (written.items.map (Written.entry (stamp now)))))
    · rw [if_pos large]
      constructor
      · rintro ⟨read, done, -⟩
        cases done
      · rintro ⟨-, small⟩
        exact absurd large (not_lt.mpr small)
    · rw [if_neg large, parseJournal_document, if_neg count]
      exact ⟨fun held => ⟨held, not_lt.mp large⟩, And.left⟩
  · intro prior reports connect replaces after sound decoded stored
    obtain ⟨current, read, rfl⟩ := recordSeen_stored stored
    rw [readSeen_sound sound] at read
    obtain rfl := Except.ok.inj read
    obtain ⟨known, checked⟩ := soundSeen_kinds sound
    have rows := @parseRows_update isNoted prior.reports _ (distinct_kept reports stamp) known
    have tagged : (∀ entry ∈ (reports.items.filter fun sighting => isNoted sighting.name).map
          (Sighting.entry stamp), isNoted entry.name ∧ Storable entry.tags entry.args)
        ↔ ∀ sighting ∈ reports.items, isNoted sighting.name → sighting.tags ≠ "" := by
      rw [List.forall_mem_map]
      constructor
      · intro fits sighting member known
        exact (fits sighting (List.mem_filter.mpr ⟨member, known⟩)).2.1
      · intro tags sighting member
        obtain ⟨member, known⟩ := List.mem_filter.mp member
        exact ⟨known, (storable_decoded (decoded sighting member)).mpr (tags sighting member known)⟩
    -- the check that is stored is sound where the one handed over is
    have check : (∀ check, connect.or prior.connect = some check → soundCheck check = .ok true)
        ↔ ∀ check, connect = some check → soundCheck check = .ok true := by
      cases connect with
      | none => exact ⟨fun _ _ found => (by cases found), fun _ => checked⟩
      | some given => exact Iff.rfl
    rw [← tagged, ← rows, ← check, ← parseConnect_ok, soundSeen_replaced]
    by_cases large : maxBytes < length (seenDocument (updateSeen stamp prior
        (reports.items.filter fun sighting => isNoted sighting.name) connect))
    · rw [if_pos large]
      constructor
      · rintro ⟨read, done, -⟩
        cases done
      · rintro ⟨-, -, small⟩
        exact absurd large (not_lt.mpr small)
    · rw [if_neg large, parseSeen_document]
      constructor
      · rintro ⟨read, done, updated, same⟩
        obtain ⟨found, parsed, rest⟩ := bind_eq_ok.mp done
        obtain ⟨stored, connected, equal⟩ := bind_eq_ok.mp rest
        obtain rfl := Except.ok.inj equal
        obtain rfl : stored = connect.or prior.connect := same
        exact ⟨⟨found, parsed, updated⟩, connected, not_lt.mp large⟩
      · rintro ⟨⟨found, parsed, updated⟩, connected, -⟩
        refine ⟨⟨found, connect.or prior.connect⟩, ?_, updated, rfl⟩
        exact bind_eq_ok.mpr ⟨found, parsed, bind_eq_ok.mpr ⟨_, connected, rfl⟩⟩

/-- A gain and a fader, acknowledged by one operation. -/
def earlier : Keyed Written.name :=
  (Keyed.empty.put ⟨"/input/1/gain", "f", [.real 3]⟩).put ⟨"/output/1/volume", "f", [.real (-10)]⟩

/-- Another gain, acknowledged by the next one. -/
def gained : Written := ⟨"/input/1/gain", "f", [.real 6]⟩

/-- A report of a number. -/
def cc (name : String) (time : ℚ) : Sighting := ⟨name, "i", [.int 1], time⟩

/-- A connect check that found nothing. -/
def matched : Json :=
  .object [("at", .str "now"), ("state", .str "matched"), ("compared", .int 0), ("mismatched", .list []),
    ("unreported", .list []), ("invalid", .list [])]

/-- The two times. -/
def stampOf (time : ℚ) : String :=
  if time = 0 then "before" else "now"

/-- A gain that replaces an earlier one beside the fader, and a report with a check beside an earlier report. -/
theorem recordsClosed_gained :
    (∃ file prior after read, recordWritten (fun _ => 0) stampOf none earlier 0 true = .ok (true, file)
      ∧ soundJournal file = .ok prior ∧ prior.items.map Entry.name = ["/input/1/gain", "/output/1/volume"]
      ∧ recordWritten (fun _ => 0) stampOf file (Keyed.empty.put gained) 7 true = .ok (true, after)
      ∧ soundJournal after = .ok read ∧ Updated prior [Written.entry "now" gained] read)
    ∧ ∃ file prior after read,
      recordSeen (fun _ => 0) stampOf none (Keyed.empty.put (cc "/hardware/ccmode" 0)) none true = .ok (true, file)
      ∧ soundSeen file = .ok prior ∧ prior.reports.items.map Entry.name = ["/hardware/ccmode"]
      ∧ recordSeen (fun _ => 0) stampOf file (Keyed.empty.put (cc "/hardware/ccmix" 7)) (some matched) true
        = .ok (true, after)
      ∧ soundSeen after = .ok read ∧ read.connect = some matched
      ∧ Updated prior.reports [(cc "/hardware/ccmix" 7).entry stampOf] read.reports := by
  constructor
  · have fits : Storable gained.tags gained.args :=
      ⟨by decide, List.Forall₂.cons (Or.inl (Or.inl ⟨rfl, _, rfl⟩)) List.Forall₂.nil⟩
    obtain ⟨read, sound, updated⟩ := ((recordsClosed (fun _ => 0) stampOf _).1 _
      (Keyed.empty.put gained) 7 true _ (rfl : soundJournal (some (replaced (fun _ => 0)
        (journalDocument (update Keyed.empty (earlier.items.map (Written.entry "before")))))) = _) rfl).mpr ⟨by
        intro write member
        obtain rfl := List.mem_singleton.mp member
        exact ⟨by decide, fits⟩, Nat.zero_le _⟩
    exact ⟨_, _, _, read, rfl, rfl, by decide +kernel, rfl, sound, updated⟩
  · have decoded : Decoded (cc "/hardware/ccmix" 7) :=
      ⟨"/hardware/ccmix".toList.map (fun char => char.toNat.toUInt8) ++ [0] ++ [44, 105, 0, 0, 0, 0, 0, 1],
        ⟨"/hardware/ccmix", "i", [.int 1]⟩, rfl, rfl⟩
    obtain ⟨read, sound, updated, connect⟩ := ((recordsClosed (fun _ => 0) stampOf _).2 _
      (Keyed.empty.put (cc "/hardware/ccmix" 7)) (some matched) true _ (rfl : soundSeen (some (replaced (fun _ => 0)
        (seenDocument (updateSeen stampOf ⟨Keyed.empty, none⟩ [cc "/hardware/ccmode" 0] none)))) = _)
      (by
        intro sighting member
        obtain rfl := List.mem_singleton.mp member
        exact decoded) rfl).mpr ⟨by
        intro sighting member _
        obtain rfl := List.mem_singleton.mp member
        decide, fun _ same => by
        obtain rfl := Option.some.inj same
        rfl, Nat.zero_le _⟩
    exact ⟨_, _, _, read, rfl, rfl, by decide +kernel, rfl, sound, connect, updated⟩

end OscmixDesk.Records
