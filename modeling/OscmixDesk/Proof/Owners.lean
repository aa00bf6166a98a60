/-
**Who owns the control endpoint.**

A row of the table is a line where its name holds no line break, and reads as what it is where the name
starts with no blank (`readRow_row`). Then the rows that are found are those of the sockets that listen at the
path. A name with a line break adds lines of its own, and a blank before it is dropped, so a path can be
claimed that nobody listens at (`Misled`).
-/

import OscmixDesk.Foundation.Checks
import OscmixDesk.Model.Endpoint

namespace OscmixDesk.Process

open Text Checks

/-! ### Lines -/

theorem newlines_append (first rest : List Char) :
    newlines (first ++ '\n' :: rest) = newlines (first ++ ['\n']) ++ newlines rest := by
  induction first using newlines.induct with
  | case1 => simp [newlines]
  | case2 later ih => simpa [newlines] using ih
  | case3 later apart ih =>
      cases later with
      | nil => simp [newlines]
      | cons c later =>
          have other : c ≠ '\n' := fun same => apart later (by rw [same])
          rw [List.cons_append, List.cons_append] at ih
          simpa [newlines, other] using ih
  | case4 c later one two ih =>
      have apart : c ≠ '\r' := by
        rintro rfl
        exact two rfl
      rw [List.cons_append, List.cons_append]
      simpa [newlines, apart] using ih

theorem splitlines_cons (c : Char) (rest : List Char) : splitlines (c :: rest) = if isBreak c = true then
      [] :: splitlines rest
    else
      match splitlines rest with
      | [] => [[c]]
      | line :: lines => (c :: line) :: lines := rfl

theorem splitlines_ne_nil {text : List Char} (some' : text ≠ []) : splitlines text ≠ [] := by
  cases text with
  | nil => exact absurd rfl some'
  | cons c rest =>
      unfold splitlines
      split_ifs
      · exact List.cons_ne_nil _ _
      · cases splitlines rest with
        | nil => exact List.cons_ne_nil _ _
        | cons line lines => exact List.cons_ne_nil _ _

theorem splitlines_append (first rest : List Char) :
    splitlines (first ++ '\n' :: rest) = splitlines (first ++ ['\n']) ++ splitlines rest := by
  induction first with
  | nil => simp [splitlines, isBreak]
  | cons c first ih =>
      rw [List.cons_append, List.cons_append, splitlines_cons, splitlines_cons c, ih]
      split_ifs
      · rfl
      · have some' : splitlines (first ++ ['\n']) ≠ [] := splitlines_ne_nil (by simp)
        cases known : splitlines (first ++ ['\n']) with
        | nil => exact absurd known some'
        | cons line lines => rfl

/-- A text without a line break is a line. -/
theorem splitlines_line {line : List Char} (whole : ∀ c ∈ line, isBreak c = false) :
    splitlines (line ++ ['\n']) = [line] := by
  induction line with
  | nil => rfl
  | cons c line ih =>
      rw [List.cons_append]
      unfold splitlines
      rw [ih fun c member => whole c (List.mem_cons_of_mem _ member),
        if_neg (by rw [whole c List.mem_cons_self]; exact Bool.false_ne_true)]

/-- Lines hold no line break. -/
theorem splitlines_whole {text line : List Char} (member : line ∈ splitlines text) :
    ∀ c ∈ line, isBreak c = false := by
  induction text generalizing line with
  | nil => cases member
  | cons first rest ih =>
      unfold splitlines at member
      split_ifs at member with breaks
      · rcases List.mem_cons.mp member with rfl | later
        · exact fun c inside => absurd inside List.not_mem_nil
        · exact ih later
      · cases known : splitlines rest with
        | nil =>
            rw [known] at member
            obtain rfl := List.mem_singleton.mp member
            intro c inside
            obtain rfl := List.mem_singleton.mp inside
            simpa using breaks
        | cons next lines =>
            rw [known] at member ih
            rcases List.mem_cons.mp member with rfl | later
            · intro c inside
              rcases List.mem_cons.mp inside with rfl | inside
              · simpa using breaks
              · exact ih List.mem_cons_self c inside
            · exact ih (List.mem_cons_of_mem _ later)

theorem newlines_line {line : List Char} (whole : ∀ c ∈ line, isBreak c = false) :
    newlines (line ++ ['\n']) = line ++ ['\n'] := by
  induction line with
  | nil => rfl
  | cons c line ih =>
      have apart : c ≠ '\r' := by
        rintro rfl
        exact absurd (whole '\r' List.mem_cons_self) (by decide)
      rw [List.cons_append]
      have later := ih fun c member => whole c (List.mem_cons_of_mem _ member)
      simp [newlines, apart, later]

/-- Reading keeps a last line break. -/
theorem newlines_ends (text : List Char) : ∃ front, newlines (text ++ ['\n']) = front ++ ['\n'] := by
  induction text using newlines.induct with
  | case1 => exact ⟨[], rfl⟩
  | case2 later ih =>
      obtain ⟨front, same⟩ := ih
      exact ⟨'\n' :: front, by simpa [newlines] using same⟩
  | case3 later apart ih =>
      cases later with
      | nil => exact ⟨[], by simp [newlines]⟩
      | cons c later =>
          have other : c ≠ '\n' := fun same => apart later (by rw [same])
          obtain ⟨front, same⟩ := ih
          rw [List.cons_append] at same
          exact ⟨'\n' :: front, by simpa [newlines, other] using same⟩
  | case4 c later one two ih =>
      have apart : c ≠ '\r' := by
        rintro rfl
        exact two rfl
      obtain ⟨front, same⟩ := ih
      exact ⟨c :: front, by simpa [newlines, apart] using same⟩

/-- The lines that a row makes of the table. -/
def linesOf (row : List Char) : List (List Char) :=
  splitlines (newlines (row ++ ['\n']))

theorem linesOf_line {row : List Char} (whole : ∀ c ∈ row, isBreak c = false) : linesOf row = [row] := by
  unfold linesOf
  rw [newlines_line whole, splitlines_line whole]

theorem newlines_rows (rows : List (List Char)) :
    splitlines (newlines (rows.flatMap (· ++ ['\n']))) = rows.flatMap linesOf := by
  induction rows with
  | nil => rfl
  | cons row rows ih =>
      rw [List.flatMap_cons, List.flatMap_cons, List.append_assoc, List.singleton_append, newlines_append]
      obtain ⟨front, same⟩ := newlines_ends row
      rw [same, List.append_assoc, List.singleton_append, splitlines_append, ← same, ih]
      rfl

/-! ### Fields -/

theorem dropWhile_blanks {blanks text : List Char} (blank : ∀ c ∈ blanks, isSpace c = true) :
    (blanks ++ text).dropWhile isSpace = text.dropWhile isSpace :=
  List.dropWhile_append_of_pos blank

/-- Blanks before a text are no field. -/
theorem splitBlanks_blanks (most : ℕ) {blanks text : List Char} (blank : ∀ c ∈ blanks, isSpace c = true) :
    splitBlanks most (blanks ++ text) = splitBlanks most text := by
  cases most with
  | zero =>
      unfold splitBlanks
      rw [dropWhile_blanks blank]
  | succ most =>
      unfold splitBlanks
      rw [dropWhile_blanks blank]

theorem Field.dropWhile (field : Field) (rest : List Char) :
    (field.text ++ rest).dropWhile isSpace = field.text ++ rest := by
  obtain ⟨text, some', solid⟩ := field
  cases text with
  | nil => exact absurd rfl some'
  | cons c text =>
      rw [List.cons_append]
      exact List.dropWhile_cons_of_neg (by rw [solid c List.mem_cons_self]; exact Bool.false_ne_true)

theorem splitBlanks_succ (most : ℕ) (text : List Char) : splitBlanks (most + 1) text
    = if (text.dropWhile isSpace).isEmpty = true then []
      else (text.dropWhile isSpace).takeWhile (!isSpace ·)
        :: splitBlanks most ((text.dropWhile isSpace).dropWhile (!isSpace ·)) := rfl

/-- A field is read up to the blank after it. -/
theorem splitBlanks_field (most : ℕ) (field : Field) (rest : List Char) :
    splitBlanks (most + 1) (field.text ++ ' ' :: rest) = field.text :: splitBlanks most rest := by
  have solid : ∀ c ∈ field.text, (!isSpace c) = true := fun c member => by rw [field.solid c member]; rfl
  rw [splitBlanks_succ, field.dropWhile]
  have some' : (field.text ++ ' ' :: rest).isEmpty = false := by simp
  rw [if_neg (by rw [some']; exact Bool.false_ne_true), List.takeWhile_append_of_pos solid,
    List.dropWhile_append_of_pos solid]
  have stop : (!isSpace ' ') = false := by decide
  rw [List.takeWhile_cons_of_neg (by rw [stop]; exact Bool.false_ne_true),
    List.dropWhile_cons_of_neg (by rw [stop]; exact Bool.false_ne_true), List.append_nil]
  refine congrArg _ (@splitBlanks_blanks most [' '] rest fun c member => ?_)
  rw [List.mem_singleton.mp member]
  decide

/-- The seven fields of a row. -/
def UnixSocket.columns (socket : UnixSocket) : List (List Char) :=
  [socket.num.text, socket.refCount.text, socket.protocol.text, socket.flags.text, socket.type.text,
    socket.st.text, socket.inode.text]

theorem splitBlanks_inode (socket : UnixSocket) (tail : List Char) :
    splitBlanks 7 (socket.fields ++ tail) = [socket.num.text, socket.refCount.text, socket.protocol.text,
      socket.flags.text, socket.type.text, socket.st.text] ++ splitBlanks 1 (socket.inode.text ++ tail) := by
  unfold UnixSocket.fields
  simp only [List.append_assoc, List.cons_append]
  rw [splitBlanks_field, splitBlanks_field, splitBlanks_field, splitBlanks_field, splitBlanks_field,
    splitBlanks_field, splitBlanks_blanks 1]
  · rfl
  · intro c member
    rw [List.eq_of_mem_replicate member]
    decide

/-- A row is read as its fields and what follows them. -/
theorem splitBlanks_fields (socket : UnixSocket) (tail : List Char) :
    splitBlanks 7 (socket.fields ++ ' ' :: tail) = socket.columns ++ splitBlanks 0 tail := by
  rw [splitBlanks_inode, splitBlanks_field]
  rfl

/-- The row of an unnamed socket ends with its inode. -/
theorem splitBlanks_unnamed (socket : UnixSocket) : splitBlanks 7 socket.fields = socket.columns := by
  have solid : ∀ c ∈ socket.inode.text, (!isSpace c) = true := fun c member => by
    rw [socket.inode.solid c member]
    rfl
  have inode : splitBlanks 1 (socket.inode.text ++ []) = [socket.inode.text] := by
    have some' : (socket.inode.text ++ []).isEmpty = false := by simpa using socket.inode.some'
    rw [splitBlanks_succ, socket.inode.dropWhile, if_neg (by rw [some']; exact Bool.false_ne_true),
      List.takeWhile_append_of_pos solid, List.dropWhile_append_of_pos solid]
    simp [splitBlanks]
  have whole := splitBlanks_inode socket []
  rw [List.append_nil, inode] at whole
  exact whole

/-- A name that is one line and starts with no blank. -/
structure Plain (name : List Char) : Prop where
  some' : name ≠ []
  solid : ∀ c ∈ name.head?, isSpace c = false
  whole : ∀ c ∈ name, isBreak c = false

/-- The socket listens at the path. -/
structure UnixSocket.ListensAt (socket : UnixSocket) (path : List Char) : Prop where
  name : socket.name = .text path
  listens : [socket.flags.text, socket.type.text, socket.st.text] = listening

theorem splitBlanks_zero {name : List Char} (plain : Plain name) : splitBlanks 0 name = [name] := by
  have kept : name.dropWhile isSpace = name := by
    cases name with
    | nil => rfl
    | cons c name =>
        exact List.dropWhile_cons_of_neg (by rw [plain.solid c rfl]; exact Bool.false_ne_true)
  have some' : name.isEmpty = false := by simpa using plain.some'
  unfold splitBlanks
  rw [kept, if_neg (by rw [some']; exact Bool.false_ne_true)]

/-- The row of a plain name says who listens where. -/
theorem readRow_row {path name : List Char} {socket : UnixSocket} (plain : Plain name) :
    readRow path (socket.fields ++ ' ' :: name)
      = if name = path ∧ [socket.flags.text, socket.type.text, socket.st.text] = listening then
          return some socket.inode.text
        else return none := by
  have read : splitBlanks 7 (socket.fields ++ ' ' :: name) = socket.columns ++ [name] := by
    rw [splitBlanks_fields, splitBlanks_zero plain]
  unfold readRow
  rw [read]
  have named : (socket.columns ++ [name])[7]? = some name := rfl
  have listens : ((socket.columns ++ [name]).drop 3).take 3
      = [socket.flags.text, socket.type.text, socket.st.text] := rfl
  have inode : (socket.columns ++ [name])[6]? = some socket.inode.text := rfl
  have eight : (socket.columns ++ [name]).length = 8 := rfl
  have enough : ¬ (8 : ℕ) < 7 := by decide
  simp only [named, listens, inode, eight, enough, if_false, Option.getD_some, socket.number, Bool.not_true,
    Option.some_inj, Bool.false_eq_true, true_and]

theorem isSpace_of_isBreak {c : Char} (breaks : isBreak c = true) : isSpace c = true := by
  simp only [isBreak, isSpace, Bool.or_eq_true, Bool.and_eq_true, decide_eq_true_eq, beq_iff_eq] at breaks ⊢
  omega

theorem Field.whole (field : Field) : ∀ c ∈ field.text, isBreak c = false := by
  intro c member
  by_contra breaks
  have blank := isSpace_of_isBreak (Bool.not_eq_false _ ▸ breaks)
  rw [field.solid c member] at blank
  cases blank

theorem UnixSocket.fields_whole (socket : UnixSocket) : ∀ c ∈ socket.fields, isBreak c = false := by
  have blank : isBreak ' ' = false := by decide
  have padding : ∀ c ∈ List.replicate (5 - socket.inode.text.length) ' ', isBreak c = false := fun c member => by
    rw [List.eq_of_mem_replicate member]
    exact blank
  simp only [UnixSocket.fields, List.append_assoc, List.cons_append, List.forall_mem_append,
    List.forall_mem_cons]
  exact ⟨socket.num.whole, blank, socket.refCount.whole, blank, socket.protocol.whole, blank,
    socket.flags.whole, blank, socket.type.whole, blank, socket.st.whole, blank, padding, socket.inode.whole⟩

/-! ### The whole table -/

/-- Every row is text and every line of it reads. -/
def Legible (path : List Char) (table : List UnixSocket) : Prop :=
  ∀ socket ∈ table, ∃ row, socket.row = some row ∧ ∀ line ∈ linesOf row, ∃ found, readRow path line = .ok found

/-- A line that the socket makes of the table says that the inode listens at the path. -/
def UnixSocket.Claims (socket : UnixSocket) (path inode : List Char) : Prop :=
  ∃ row, socket.row = some row ∧ ∃ line ∈ linesOf row, readRow path line = .ok (some inode)

/-- The inodes of the lines of the table that claim the path. -/
def claimed (path : List Char) (rows : List (List Char)) : Except Unreadable (List (List Char)) :=
  (fun found : List (Option (List Char)) => (found.filterMap id).dedup) <$>
    (rows.flatMap linesOf).mapM (readRow path)

theorem whole_of_all {text : List Char} (all : text.all (!isBreak ·) = true) : ∀ c ∈ text, isBreak c = false :=
  fun c member => by simpa using List.all_eq_true.mp all c member

theorem header_line : splitlines (header ++ ['\n']) = [header] ∧ newlines (header ++ ['\n']) = header ++ ['\n']
    ∧ (splitBlanks header.length header).take 7 = columnNames := by
  have whole : ∀ c ∈ header, isBreak c = false := whole_of_all (by decide +kernel)
  exact ⟨splitlines_line whole, newlines_line whole, by decide +kernel⟩

theorem listeningInodes_rows (path : List Char) {table : List UnixSocket} {rows : List (List Char)}
    (decoded : table.mapM UnixSocket.row = some rows) : listeningInodes path (renderTable table)
      = (claimed path rows >>= fun inodes => if 1 < inodes.length then throw .several else return inodes) := by
  obtain ⟨line, kept, columns⟩ := header_line
  have read : splitlines (newlines (header ++ '\n' :: rows.flatMap (· ++ ['\n'])))
      = header :: rows.flatMap linesOf := by
    rw [newlines_append, kept, List.append_assoc, List.singleton_append, splitlines_append, line, newlines_rows]
    rfl
  unfold listeningInodes renderTable claimed
  rw [decoded]
  simp only [Option.map_some, Option.elim_some, pure_bind, read, columns, ne_eq, not_true, if_false,
    map_eq_pure_bind, bind_assoc]

theorem controlSocketOwner_rows (path : List Char) {table : List UnixSocket} {rows : List (List Char)}
    (decoded : table.mapM UnixSocket.row = some rows) (entries : List Entry) :
    controlSocketOwner path (renderTable table) entries = (claimed path rows >>= fun inodes =>
      if 1 < inodes.length then throw .several else ownerOfSockets inodes entries) := by
  unfold controlSocketOwner
  rw [listeningInodes_rows path decoded, bind_assoc]
  congr 1
  funext inodes
  split_ifs <;> rfl

theorem mapM_row {table : List UnixSocket} {rows : List (List Char)} :
    table.mapM UnixSocket.row = some rows
      ↔ List.Forall₂ (fun (socket : UnixSocket) row => socket.row = some row) table rows := by
  induction table generalizing rows with
  | nil => simp [eq_comm]
  | cons socket table ih =>
      rw [List.mapM_cons]
      constructor
      · intro decoded
        obtain ⟨row, here, later⟩ := Option.bind_eq_some_iff.mp decoded
        obtain ⟨others, there, same⟩ := Option.bind_eq_some_iff.mp later
        obtain rfl : row :: others = rows := by simpa using same
        exact List.Forall₂.cons here (ih.mp there)
      · intro pairs
        cases pairs with
        | cons here there => simp [here, ih.mpr there]

/-- Every line of the table can be read where every row is text and its lines can. -/
theorem legible_iff {path : List Char} {table : List UnixSocket} : Legible path table
    ↔ ∃ rows inodes, table.mapM UnixSocket.row = some rows ∧ claimed path rows = .ok inodes := by
  constructor
  · intro legible
    have decoded : ∃ rows, table.mapM UnixSocket.row = some rows := by
      have all : ∀ socket ∈ table, ∃ row, socket.row = some row := fun socket member =>
        (legible socket member).imp fun row holds => holds.1
      clear legible
      induction table with
      | nil => exact ⟨[], mapM_row.mpr List.Forall₂.nil⟩
      | cons socket table ih =>
          obtain ⟨row, here⟩ := all socket List.mem_cons_self
          obtain ⟨rows, there⟩ := ih fun other member => all other (List.mem_cons_of_mem _ member)
          exact ⟨row :: rows, mapM_row.mpr (List.Forall₂.cons here (mapM_row.mp there))⟩
    obtain ⟨rows, decoded⟩ := decoded
    have lines : ∀ line ∈ rows.flatMap linesOf, ∃ found, readRow path line = .ok found ∧ True := by
      intro line member
      obtain ⟨row, among, inside⟩ := List.mem_flatMap.mp member
      obtain ⟨socket, listed, same⟩ := exists_left (mapM_row.mp decoded) among
      obtain ⟨row', same', reads⟩ := legible socket listed
      obtain rfl : row = row' := Option.some_inj.mp (same.symm.trans same')
      obtain ⟨found, holds⟩ := reads line inside
      exact ⟨found, holds, trivial⟩
    obtain ⟨found, read, _⟩ := mapM_total lines
    exact ⟨rows, _, decoded, map_eq_ok.mpr ⟨found, read, rfl⟩⟩
  · rintro ⟨rows, inodes, decoded, known⟩ socket listed
    obtain ⟨found, read, -⟩ := map_eq_ok.mp known
    obtain ⟨row, among, same⟩ := exists_right (mapM_row.mp decoded) listed
    refine ⟨row, same, fun line inside => ?_⟩
    obtain ⟨value, -, holds⟩ := exists_right (mapM_eq_ok.mp read) (List.mem_flatMap.mpr ⟨row, among, inside⟩)
    exact ⟨value, holds⟩

/-- What is found are the inodes that the sockets' lines claim. -/
theorem mem_claimed {path : List Char} {table : List UnixSocket} {rows inodes : List (List Char)}
    (decoded : table.mapM UnixSocket.row = some rows) (known : claimed path rows = .ok inodes)
    (inode : List Char) : inode ∈ inodes ↔ ∃ socket ∈ table, socket.Claims path inode := by
  obtain ⟨found, read, rfl⟩ := map_eq_ok.mp known
  simp only [List.mem_dedup, List.mem_filterMap, id_eq, exists_eq_right]
  constructor
  · intro member
    obtain ⟨line, among, holds⟩ := mem_of_mapM read member
    obtain ⟨row, same, inside⟩ := List.mem_flatMap.mp among
    obtain ⟨socket, listed, text⟩ := exists_left (mapM_row.mp decoded) same
    exact ⟨socket, listed, row, text, line, inside, holds⟩
  · rintro ⟨socket, listed, row, text, line, inside, holds⟩
    obtain ⟨row', among, text'⟩ := exists_right (mapM_row.mp decoded) listed
    obtain rfl : row = row' := Option.some_inj.mp (text.symm.trans text')
    obtain ⟨value, member, same⟩ := exists_right (mapM_eq_ok.mp read)
      (List.mem_flatMap.mpr ⟨row, among, inside⟩)
    obtain rfl : some inode = value := Except.ok.inj (holds.symm.trans same)
    exact member

theorem claimed_nodup {path : List Char} {rows inodes : List (List Char)}
    (known : claimed path rows = .ok inodes) : inodes.Nodup := by
  obtain ⟨found, -, rfl⟩ := map_eq_ok.mp known
  exact List.nodup_dedup _

/-- The process holds the inode. -/
def Holds (entries : List Entry) (inode : List Char) (pid : ℕ) : Prop :=
  ∃ entry ∈ entries, entry.pid = pid ∧ entry.holdsAny [inode] = true

theorem mem_owners {entries : List Entry} {inode : List Char} {pid : ℕ} :
    pid ∈ ((entries.filter (·.holdsAny [inode])).map Entry.pid).dedup ↔ Holds entries inode pid := by
  simp only [List.mem_dedup, List.mem_map, List.mem_filter, Holds]
  exact ⟨fun ⟨entry, ⟨listed, holds⟩, same⟩ => ⟨entry, listed, same, holds⟩,
    fun ⟨entry, listed, same, holds⟩ => ⟨entry, ⟨listed, holds⟩, same⟩⟩

/-- Of one inode, the owner is the one process that holds it. -/
theorem ownerOfSockets_one {entries : List Entry} {inode : List Char} {result : Option ℕ} :
    ownerOfSockets [inode] entries = .ok result ↔ ∀ pid, Holds entries inode pid ↔ result = some pid := by
  unfold ownerOfSockets
  rw [if_neg (List.cons_ne_nil _ _), guard_eq_ok]
  have among := @mem_owners entries inode
  have distinct := List.nodup_dedup ((entries.filter (·.holdsAny [inode])).map Entry.pid)
  revert among distinct
  generalize ((entries.filter (·.holdsAny [inode])).map Entry.pid).dedup = owners
  intro among distinct
  simp only [← among, pure_eq_ok]
  cases owners with
  | nil => cases result <;> simp
  | cons pid others =>
      cases others with
      | nil =>
          cases result with
          | none => simp
          | some other => simp [eq_comm]
      | cons other others =>
          have apart : pid ≠ other := fun same => by simp [same] at distinct
          constructor
          · rintro ⟨single, _⟩
            simp at single
          · intro sole
            have first := (sole pid).mp List.mem_cons_self
            have second := (sole other).mp (List.mem_cons_of_mem _ List.mem_cons_self)
            exact absurd (Option.some_inj.mp (first.symm.trans second)) apart

/-- The lines agree on the inodes that listen at the path. -/
def Agreed (path : List Char) (table : List UnixSocket) (inode : List Char) : Prop :=
  ∀ other, (∃ socket ∈ table, socket.Claims path other) ↔ other = inode

/-- The owner that is found: nobody where no line claims the path, else who holds the one inode claimed. -/
theorem controlSocketOwner_ok {path : List Char} {table : List UnixSocket} {entries : List Entry}
    {result : Option ℕ} : controlSocketOwner path (renderTable table) entries = .ok result
      ↔ Legible path table ∧ (((∀ socket ∈ table, ∀ inode, ¬ socket.Claims path inode) ∧ result = none)
        ∨ ∃ inode, Agreed path table inode ∧ ∀ pid, Holds entries inode pid ↔ result = some pid) := by
  cases decoded : table.mapM UnixSocket.row with
  | none =>
      rw [renderTable, decoded, legible_iff, decoded]
      simp [controlSocketOwner, listeningInodes, throw, throwThe, MonadExceptOf.throw, bind, Except.bind]
  | some rows =>
      rw [controlSocketOwner_rows path decoded, bind_eq_ok, legible_iff, decoded]
      constructor
      · rintro ⟨inodes, known, read⟩
        obtain ⟨single, owner⟩ := guard_eq_ok.mp read
        refine ⟨⟨rows, inodes, rfl, known⟩, ?_⟩
        have among := mem_claimed decoded known
        match inodes, single with
        | [], _ =>
            refine Or.inl ⟨fun socket listed inode claims => ?_, (pure_eq_ok.mp owner).symm⟩
            exact List.not_mem_nil ((among inode).mpr ⟨socket, listed, claims⟩)
        | [inode], _ =>
            exact Or.inr ⟨inode, fun other => (among other).symm.trans List.mem_singleton,
              ownerOfSockets_one.mp owner⟩
        | inode :: other :: _, single => simp at single
      · rintro ⟨⟨rows', inodes, same, known⟩, answer⟩
        obtain rfl : rows = rows' := Option.some_inj.mp same
        refine ⟨inodes, known, ?_⟩
        have among := mem_claimed decoded known
        rcases answer with ⟨nobody, rfl⟩ | ⟨inode, agreed, owner⟩
        · obtain rfl : inodes = [] := List.eq_nil_iff_forall_not_mem.mpr fun inode member => by
            obtain ⟨socket, listed, claims⟩ := (among inode).mp member
            exact nobody socket listed inode claims
          rfl
        · obtain rfl : inodes = [inode] := by
            refine List.perm_singleton.mp ((List.perm_ext_iff_of_nodup (claimed_nodup known)
              (List.nodup_singleton inode)).mpr fun other => ?_)
            exact (among other).trans ((agreed other).trans List.mem_singleton.symm)
          exact guard_eq_ok.mpr ⟨by simp, ownerOfSockets_one.mpr owner⟩

/-! ### Claims -/

/-- A line of a row that claims the path. -/
theorem readRow_some {path line inode : List Char} (read : readRow path line = .ok (some inode)) :
    (splitBlanks 7 line)[7]? = some path := by
  unfold readRow at read
  obtain ⟨-, read⟩ := guard_eq_ok.mp read
  split_ifs at read with listens
  · exact listens.2.1
  · cases read

/-- What follows the fields of a text is a part of it that starts with no blank. -/
theorem splitBlanks_last {most : ℕ} {text last : List Char} (known : (splitBlanks most text)[most]? = some last) :
    last ≠ [] ∧ (∀ c ∈ last.head?, isSpace c = false) ∧ ∀ c ∈ last, c ∈ text := by
  induction most generalizing text with
  | zero =>
      unfold splitBlanks at known
      split_ifs at known with none'
      · cases known
      · obtain rfl : text.dropWhile isSpace = last := by simpa using known
        refine ⟨by simpa using none', fun c first => ?_, fun c member => (List.dropWhile_sublist _).subset member⟩
        have stops := List.head?_dropWhile_not isSpace text
        rw [Option.mem_def.mp first] at stops
        simpa using stops
  | succ most ih =>
      rw [splitBlanks_succ] at known
      split_ifs at known
      · cases known
      · rw [List.getElem?_cons_succ] at known
        obtain ⟨some', solid, within⟩ := ih known
        exact ⟨some', solid, fun c member =>
          (List.dropWhile_sublist _).subset ((List.dropWhile_sublist _).subset (within c member))⟩

/-- A path that is claimed is one line and starts with no blank. -/
theorem UnixSocket.Claims.plain {socket : UnixSocket} {path inode : List Char}
    (claims : socket.Claims path inode) : Plain path := by
  obtain ⟨row, -, line, member, read⟩ := claims
  obtain ⟨some', solid, within⟩ := splitBlanks_last (readRow_some read)
  exact ⟨some', solid, fun c inside => splitlines_whole member c (within c inside)⟩

/-- A row with a plain name is a line. -/
theorem linesOf_row {socket : UnixSocket} {name : List Char} (plain : Plain name) :
    linesOf (socket.fields ++ ' ' :: name) = [socket.fields ++ ' ' :: name] := by
  refine linesOf_line fun c member => ?_
  rcases List.mem_append.mp member with member | member
  · exact socket.fields_whole c member
  · rcases List.mem_cons.mp member with rfl | member
    · decide
    · exact plain.whole c member

/-- The row of a plain name claims its path alone, where the socket listens. -/
theorem claims_row {socket : UnixSocket} {path name inode : List Char} (named : socket.name = .text name)
    (plain : Plain name) :
    socket.Claims path inode ↔ socket.ListensAt path ∧ inode = socket.inode.text := by
  have row : socket.row = some (socket.fields ++ ' ' :: name) := by rw [UnixSocket.row, named]
  have read : socket.Claims path inode ↔ readRow path (socket.fields ++ ' ' :: name) = .ok (some inode) := by
    constructor
    · rintro ⟨row', same, line, member, read⟩
      obtain rfl := Option.some_inj.mp (row.symm.trans same)
      rw [linesOf_row plain] at member
      rwa [← List.mem_singleton.mp member]
    · intro read
      exact ⟨_, row, _, by rw [linesOf_row plain]; exact List.mem_singleton_self _, read⟩
  rw [read, readRow_row plain]
  have listens : socket.ListensAt path
      ↔ name = path ∧ [socket.flags.text, socket.type.text, socket.st.text] = listening := by
    constructor
    · rintro ⟨same, listens⟩
      exact ⟨Name.text.inj (named.symm.trans same), listens⟩
    · rintro ⟨rfl, listens⟩
      exact ⟨named, listens⟩
  rw [listens]
  split_ifs with listens
  · simp [listens, pure, Except.pure, eq_comm]
  · simp [listens, pure, Except.pure]

/-! ### Answers -/

/-- A process that is returned holds the inode of a socket that listens at the path, and where nobody is
returned none is held. -/
def Answers (path : List Char) (table : List UnixSocket) (entries : List Entry) : Prop :=
  (∀ pid, controlSocketOwner path (renderTable table) entries = .ok (some pid) →
    ∃ socket ∈ table, socket.ListensAt path ∧ Holds entries socket.inode.text pid)
    ∧ (controlSocketOwner path (renderTable table) entries = .ok none →
      ∀ socket ∈ table, socket.ListensAt path → ∀ pid, ¬ Holds entries socket.inode.text pid)

/-- The lines agree on an inode that one process holds, and no socket listens at the path. -/
structure Misled (path : List Char) (table : List UnixSocket) (entries : List Entry) : Prop where
  legible : Legible path table
  agreed : ∃ inode, Agreed path table inode ∧ ∃ pid, ∀ other, Holds entries inode other ↔ other = pid
  nobody : ∀ socket ∈ table, ¬ socket.ListensAt path

/-- The path is no line or starts with a blank, and a process holds a socket that listens there. -/
structure Overlooked (path : List Char) (table : List UnixSocket) (entries : List Entry) : Prop where
  odd : ¬ Plain path
  legible : Legible path table
  somebody : ∃ socket ∈ table, socket.ListensAt path ∧ ∃ pid, Holds entries socket.inode.text pid

/-- Where the lines mislead nobody and the path can be read off its row, the answer is right. -/
theorem answers_of {path : List Char} {table : List UnixSocket} {entries : List Entry}
    (misled : ¬ Misled path table entries) (overlooked : ¬ Overlooked path table entries) :
    Answers path table entries := by
  constructor
  · intro pid found
    obtain ⟨legible, ⟨-, none'⟩ | ⟨inode, agreed, holders⟩⟩ := controlSocketOwner_ok.mp found
    · cases none'
    · obtain ⟨claimer, among, claims⟩ := (agreed inode).mpr rfl
      obtain ⟨socket, listed, listens⟩ : ∃ socket ∈ table, socket.ListensAt path := by
        by_contra nobody
        push Not at nobody
        exact misled ⟨legible, ⟨inode, agreed, pid, fun other =>
          (holders other).trans (by rw [Option.some_inj, eq_comm])⟩, nobody⟩
      have same : socket.inode.text = inode :=
        (agreed _).mp ⟨socket, listed, (claims_row listens.name claims.plain).mpr ⟨listens, rfl⟩⟩
      exact ⟨socket, listed, listens, same ▸ (holders pid).mpr rfl⟩
  · intro found socket listed listens pid holds
    obtain ⟨legible, answer⟩ := controlSocketOwner_ok.mp found
    by_cases plain : Plain path
    · have claims := (claims_row listens.name plain).mpr ⟨listens, rfl⟩
      rcases answer with ⟨nobody, -⟩ | ⟨inode, agreed, holders⟩
      · exact nobody socket listed _ claims
      · have same := (agreed _).mp ⟨socket, listed, claims⟩
        have known := (holders pid).mp (same ▸ holds)
        cases known
    · exact overlooked ⟨plain, legible, socket, listed, listens, pid, holds⟩

/-- Where all names are lines that start with no blank, the owner is right. -/
theorem answers_of_plain {path : List Char} {table : List UnixSocket} (entries : List Entry) (plain : Plain path)
    (names : ∀ socket ∈ table, ∀ name, socket.name = .text name → Plain name) :
    Answers path table entries := by
  refine answers_of ?_ fun overlooked => overlooked.odd plain
  rintro ⟨-, ⟨inode, agreed, -⟩, nobody⟩
  obtain ⟨socket, listed, claims⟩ := (agreed inode).mpr rfl
  cases named : socket.name with
  | unnamed =>
      obtain ⟨row, same, line, member, read⟩ := claims
      rw [UnixSocket.row, named] at same
      obtain rfl := Option.some_inj.mp same
      rw [linesOf_line socket.fields_whole] at member
      obtain rfl := List.mem_singleton.mp member
      have last := readRow_some read
      rw [splitBlanks_unnamed] at last
      cases last
  | text name => exact nobody socket listed ((claims_row named (names socket listed name named)).mp claims).1
  | binary =>
      obtain ⟨row, same, -⟩ := claims
      rw [UnixSocket.row, named] at same
      cases same

/-- The owner that is returned is one of the endpoint, and nobody is returned only where nobody owns it, just
where the lines mislead nobody and the path can be read off its row. -/
theorem ownerAnswers (path : List Char) (table : List UnixSocket) (entries : List Entry) :
    Answers path table entries ↔ ¬ Misled path table entries ∧ ¬ Overlooked path table entries := by
  constructor
  · rintro ⟨owner, nobody⟩
    constructor
    · rintro ⟨legible, ⟨inode, agreed, pid, sole⟩, none'⟩
      have found : controlSocketOwner path (renderTable table) entries = .ok (some pid) :=
        controlSocketOwner_ok.mpr ⟨legible, Or.inr ⟨inode, agreed, fun other =>
          (sole other).trans (by rw [Option.some_inj, eq_comm])⟩⟩
      obtain ⟨socket, listed, listens, -⟩ := owner pid found
      exact none' socket listed listens
    · rintro ⟨odd, legible, socket, listed, listens, pid, holds⟩
      have found : controlSocketOwner path (renderTable table) entries = .ok none :=
        controlSocketOwner_ok.mpr ⟨legible, Or.inl ⟨fun other _ inode claims => odd claims.plain, rfl⟩⟩
      exact nobody found socket listed listens pid holds
  · rintro ⟨misled, overlooked⟩
    exact answers_of misled overlooked

/-- A field from its text. -/
def Field.of (text : List Char) (some' : text ≠ []) (solid : text.all (!isSpace ·) = true) : Field :=
  ⟨text, some', fun c member => by simpa using List.all_eq_true.mp solid c member⟩

/-- A stream socket whose name goes on in the next line as a row of `/c`. -/
def forger : UnixSocket where
  num := Field.of ['0', ':'] (by decide) (by decide)
  refCount := Field.of ['0', '0', '0', '0', '0', '0', '0', '2'] (by decide) (by decide)
  protocol := Field.of ['0', '0', '0', '0', '0', '0', '0', '0'] (by decide) (by decide)
  flags := Field.of ['0', '0', '0', '0', '0', '0', '0', '0'] (by decide) (by decide)
  type := Field.of ['0', '0', '0', '1'] (by decide) (by decide)
  st := Field.of ['0', '1'] (by decide) (by decide)
  inode := Field.of ['7'] (by decide) (by decide)
  name := .text ['x', '\n', '0', ':', ' ', '2', ' ', '0', ' ', '0', '0', '0', '1', '0', '0', '0', '0', ' ',
    '0', '0', '0', '5', ' ', '0', '1', ' ', '7', ' ', '/', 'c']
  number := by decide

/-- Nobody listens at `/c`, and the forger is returned as its owner. -/
theorem forger_owns :
    ¬ Answers ['/', 'c'] [forger] [⟨101, some [some (.socket ['7'])]⟩] := by
  rintro ⟨owner, -⟩
  have found : controlSocketOwner ['/', 'c'] (renderTable [forger]) [⟨101, some [some (.socket ['7'])]⟩]
      = .ok (some 101) := by
    decide +kernel
  obtain ⟨socket, listed, listens, -⟩ := owner 101 found
  obtain rfl := List.mem_singleton.mp listed
  exact absurd listens.name (by decide)

end OscmixDesk.Process
