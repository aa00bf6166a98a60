/-
**An interface is not taken from a client's name.**

Each client of the sequencer is a record of the client list, and its name stands there as it was chosen. A name
that breaks the line begins lines of its own, and `\s*` reads over a line break. What the line pattern reads at
the beginning of a record is the record, where no name breaks the line (`groups_record`), and nothing is read
elsewhere. Otherwise some line is read that is not its client's, and whoever asks for its name is given its
number (`unspoofed_iff`).
-/

import OscmixDesk.Proof.Boxes
import OscmixDesk.Proof.Signals

namespace OscmixDesk.Discovery

open Patterns Text

/-! ### The client list -/

/-- A client of the sequencer. -/
structure SeqClient where
  number : ℕ
  /-- A kernel client, else one of user space. -/
  kernel : Bool
  name : List Char
  deriving DecidableEq, Repr

/-- "Kernel". -/
def kernelType : List Char :=
  ['K', 'e', 'r', 'n', 'e', 'l']

/-- "Kernel" or "User". -/
def SeqClient.type (client : SeqClient) : List Char :=
  if client.kernel then kernelType else ['U', 's', 'e', 'r']

/-- `Client <n> : "<name>" [<type>]`. -/
def SeqClient.line (client : SeqClient) : List Char :=
  ['C', 'l', 'i', 'e', 'n', 't', ' '] ++ Nat.toDigits 10 client.number ++ [' ', ':', ' ', '"'] ++ client.name
    ++ ['"', ' ', '['] ++ client.type ++ [']']

/-- The client list, a line for each client. -/
def listing (clients : List SeqClient) : List Char :=
  clients.flatMap fun client => client.line ++ ['\n']

/-- The numbers that begin a line of a client list. -/
def lineNumbers (text : List Char) : List ℕ :=
  (findall clientNumberRe text).map fun groups => int groups.flatten

/-- A kernel client of the list has the number, its own name is the device's, and a card's where cards are
given. -/
def Genuine (clients : List SeqClient) (deviceName : List Char) (cards : Option (List (List Char)))
    (number : ℕ) : Prop :=
  ∃ client ∈ clients, client.number = number ∧ client.kernel = true
    ∧ (isExactly deviceName client.name = true ∨ contains deviceName client.name = true)
    ∧ ∀ products, cards = some products → client.name ∈ products

/-- Whatever device is asked for, the number that is returned is genuine. -/
def Unspoofed (alnum : Char → Bool) (clients : List SeqClient) : Prop :=
  ∀ deviceName serial cards number,
    selectSeqClient alnum (listing clients) deviceName serial cards = .ok (some number) →
      Genuine clients deviceName cards number

/-- Either a number begins two lines of the list, or what is read as the line of a kernel client, under a name
that no other such line has, is a kernel client's number and name. -/
def Unforged (alnum : Char → Bool) (clients : List SeqClient) : Prop :=
  (lineNumbers (listing clients)).Nodup →
    ∀ digits name, [digits, name, kernelType] ∈ findall (clientLineRe alnum) (listing clients) →
      ((findall (clientLineRe alnum) (listing clients)).countP fun groups =>
        groups.drop 1 == [name, kernelType]) = 1 →
      ∃ client ∈ clients, client.kernel = true ∧ client.number = int digits ∧ client.name = name

variable {alnum : Char → Bool} {clients : List SeqClient}

/-! ### Numbers -/

theorem strip_of_all {text : List Char} (none : ∀ c ∈ text, isSpace c = false) : strip text = text := by
  have kept {text : List Char} (none : ∀ c ∈ text, isSpace c = false) : text.dropWhile isSpace = text := by
    cases text with
    | nil => rfl
    | cons c rest => exact List.dropWhile_cons_of_neg (by simp [none c List.mem_cons_self])
  unfold strip
  rw [kept none, kept fun c member => none c (List.mem_reverse.mp member), List.reverse_reverse]

theorem digitValue_digit {c : Char} (digit : c.isDigit = true) : digitValue c = some (c.toNat - 48) := by
  have range : 48 ≤ c.toNat ∧ c.toNat ≤ 57 := by
    obtain ⟨low, high⟩ := (Bool.and_eq_true _ _).mp digit
    exact ⟨of_decide_eq_true low, of_decide_eq_true high⟩
  have first : (decide (48 ≤ c.toNat) && decide (c.toNat < 48 + 10)) = true := by
    simp only [Bool.and_eq_true, decide_eq_true_eq]
    omega
  have found : decimalZeros.find? (fun start => start ≤ c.toNat && c.toNat < start + 10) = some 48 :=
    List.find?_cons_of_pos first
  unfold digitValue
  rw [found]
  rfl

theorem digitRun_digits {text : List Char} (some' : text ≠ []) (digits : ∀ c ∈ text, c.isDigit = true) :
    digitRun text = some (text.map fun c => c.toNat - 48) := by
  induction text with
  | nil => exact absurd rfl some'
  | cons c rest ih =>
      have first := digitValue_digit (digits c List.mem_cons_self)
      cases rest with
      | nil =>
          unfold digitRun
          rw [first]
          rfl
      | cons d rest =>
          have later := ih (List.cons_ne_nil d rest) fun e member => digits e (List.mem_cons_of_mem _ member)
          have apart : d ≠ '_' := by
            rintro rfl
            exact absurd (digits '_' (by simp)) (by decide)
          have step : digitRun (c :: d :: rest) = (do
              let value ← digitValue c
              let values ← digitRun (d :: rest)
              return value :: values) := by
            rw [digitRun]
            · exact fun same => by cases same
            · exact fun _ same => apart (List.cons.inj same).1
          rw [step, first, later]
          rfl

/-- `int` of a number's digits is the number. -/
theorem int_toDigits (n : ℕ) : int (Nat.toDigits 10 n) = n := by
  have digits : ∀ c ∈ Nat.toDigits 10 n, c.isDigit = true := fun c member => Process.isDigit_pidText member
  have some' : Nat.toDigits 10 n ≠ [] := Nat.toDigits_ne_nil
  have unsigned : signed (Nat.toDigits 10 n) = (false, Nat.toDigits 10 n) := by
    cases whole : Nat.toDigits 10 n with
    | nil => exact absurd whole some'
    | cons c rest =>
        have first := digits c (whole ▸ List.mem_cons_self)
        have unlike {sign : Char} (no : sign.isDigit = false) (rest' : List Char) :
            c :: rest = sign :: rest' → False := by
          rintro ⟨⟩
          rw [no] at first
          cases first
        rw [signed]
        · exact unlike (by decide)
        · exact unlike (by decide)
  have value : ofDigits ((Nat.toDigits 10 n).map fun c => c.toNat - 48) = n := by
    unfold ofDigits
    rw [List.foldl_map]
    exact (Nat.ofDigitChars_eq_foldl (b := 10)).symm.trans Nat.ofDigitChars_ten_toDigits
  unfold int readInt
  rw [strip_of_all fun c member => Process.not_isSpace_digit (digits c member), unsigned]
  dsimp only
  rw [digitRun_digits some' digits, Option.map_some, if_neg Bool.false_ne_true, value]
  rfl

/-! ### What is chosen -/

/-- A list is read where no number begins two of its lines, and then by the line pattern. -/
theorem kernelClients_ok {text : List Char} (distinct : (lineNumbers text).Nodup) :
    ∃ entries, kernelClients alnum text = .ok entries := by
  have once : ((lineNumbers text).filter fun n => 1 < (lineNumbers text).count n) = [] := by
    refine List.filter_eq_nil_iff.mpr fun n _ more => ?_
    have most := List.nodup_iff_count_le_one.mp distinct n
    have many := of_decide_eq_true more
    omega
  unfold lineNumbers at once
  unfold kernelClients
  dsimp only
  rw [once, if_neg (fun some' => some' rfl)]
  exact ⟨_, rfl⟩

theorem kernelClients_read {text : List Char} {entries : List (ℕ × List Char)}
    (read : kernelClients alnum text = .ok entries) :
    (lineNumbers text).Nodup
      ∧ (∀ entry, entry ∈ entries ↔ ∃ digits, [digits, entry.2, kernelType] ∈ findall (clientLineRe alnum) text
          ∧ int digits = entry.1)
      ∧ ∀ name, entries.countP (·.2 == name)
          = (findall (clientLineRe alnum) text).countP fun groups => groups.drop 1 == [name, kernelType] := by
  unfold kernelClients at read
  dsimp only at read
  split_ifs at read with repeated
  obtain rfl := Except.ok.inj read
  refine ⟨?_, fun entry => ?_, fun name => ?_⟩
  · have once := (List.dedup_eq_nil _).mp ((List.perm_insertionSort _ _).symm.trans
      (List.Perm.of_eq (not_not.mp repeated))).eq_nil
    refine List.nodup_iff_count_le_one.mpr fun n => ?_
    by_contra more
    have member : n ∈ lineNumbers text := List.count_pos_iff.mp (by omega)
    exact List.filter_eq_nil_iff.mp once n member (decide_eq_true (not_le.mp more))
  · constructor
    · intro member
      obtain ⟨groups, there, read⟩ := List.mem_filterMap.mp member
      split at read
      · next number name kind =>
          split_ifs at read with kernel
          obtain rfl := Option.some_inj.mp read
          exact ⟨number, by rwa [kernel] at there, rfl⟩
      · cases read
    · rintro ⟨digits, there, same⟩
      exact List.mem_filterMap.mpr ⟨_, there, (if_pos rfl).trans (congrArg some (Prod.ext same rfl))⟩
  · rw [List.countP_filterMap]
    refine List.countP_congr fun groups _ => ?_
    split
    · next number name' kind _ =>
        by_cases kernel : kind = ['K', 'e', 'r', 'n', 'e', 'l']
        · simp [kernel, kernelType]
        · simp [kernel, kernelType]
    · next other =>
        have unlike : groups.tail ≠ [name, kernelType] := by
          intro same
          cases groups with
          | nil => cases same
          | cons number rest =>
              rw [List.tail_cons] at same
              exact other number name kernelType (by rw [same])
        simp [unlike]

/-- What a device's name leaves of a list is a matter of the names. -/
theorem best_filter {α : Type} (nameOf : α → List Char) (deviceName : List Char) (entries : List α) :
    ∃ accepts : List Char → Bool,
      (∀ name, accepts name = true → isExactly deviceName name = true ∨ contains deviceName name = true)
        ∧ best nameOf deviceName entries = entries.filter fun entry => accepts (nameOf entry) := by
  unfold best
  split_ifs
  · exact ⟨isExactly deviceName, fun _ => Or.inl, rfl⟩
  · exact ⟨contains deviceName, fun _ => Or.inr, rfl⟩

/-- What `select_seq_client` returns is an entry that no other has the name of, and its name is the device's
and a card's. -/
theorem selectSeqClient_some {text deviceName serial : List Char} {cards : Option (List (List Char))}
    {entries : List (ℕ × List Char)} (read : kernelClients alnum text = .ok entries) {number : ℕ}
    (chosen : selectSeqClient alnum text deviceName serial cards = .ok (some number)) :
    ∃ name, (number, name) ∈ entries ∧ entries.countP (·.2 == name) = 1
      ∧ (isExactly deviceName name = true ∨ contains deviceName name = true)
      ∧ ∀ products, cards = some products → name ∈ products := by
  unfold selectSeqClient at chosen
  simp only [read, bind, Except.bind, pick_named] at chosen
  obtain ⟨accepts, matched, left⟩ := best_filter Prod.snd deviceName
    (entries.filter fun client => cards.all fun cards => decide (client.2 ∈ cards))
  rw [left, List.filter_filter, List.filter_filter] at chosen
  split_ifs at chosen with many
  have head := Option.map_eq_some_iff.mp (Except.ok.inj chosen)
  obtain ⟨⟨number', name⟩, first, rfl⟩ := head
  have member := List.mem_filter.mp (List.mem_of_head? first)
  have all := member.2
  simp only [Bool.and_eq_true] at all
  refine ⟨name, member.1, le_antisymm ?_ ?_, matched name all.1.2, ?_⟩
  · rw [← List.countP_eq_length_filter] at many
    refine le_trans (List.countP_mono_left fun other _ same => ?_) (not_lt.mp many)
    rw [eq_of_beq same]
    exact member.2
  · exact List.countP_pos_iff.mpr ⟨_, member.1, beq_self_eq_true name⟩
  · rintro products rfl
    simpa using all.2

/-- Whoever asks for a name that one entry has, with a card of it, is given its number. -/
theorem selectSeqClient_named {text : List Char} {entries : List (ℕ × List Char)}
    (read : kernelClients alnum text = .ok entries) {entry : ℕ × List Char} (member : entry ∈ entries)
    (once : entries.countP (·.2 == entry.2) = 1) :
    selectSeqClient alnum text entry.2 [] (some [entry.2]) = .ok (some entry.1) := by
  have carded : (entries.filter fun client => (some [entry.2]).all fun cards => decide (client.2 ∈ cards))
      = [entry] := by
    have same : (entries.filter fun client => (some [entry.2]).all fun cards => decide (client.2 ∈ cards))
        = entries.filter (·.2 == entry.2) := by
      refine List.filter_congr fun client _ => ?_
      by_cases named : client.2 = entry.2
      · simp [named]
      · simp [named]
    rw [List.countP_eq_length_filter] at once
    obtain ⟨other, only⟩ := List.length_eq_one_iff.mp once
    have there : entry ∈ entries.filter (·.2 == entry.2) :=
      List.mem_filter.mpr ⟨member, beq_self_eq_true entry.2⟩
    rw [only] at there
    rw [same, only, List.mem_singleton.mp there]
  unfold selectSeqClient
  simp only [read, bind, Except.bind, carded, pick_named]
  have exactly : best Prod.snd entry.2 [entry] = [entry] := by
    simp [best, isExactly]
  rw [exactly]
  rfl

/-! ### The record of a client -/

theorem clientLineRe_eq (alnum : Char → Bool) : clientLineRe alnum
    = { item := .lineStart } :: (Patterns.literal ['C', 'l', 'i', 'e', 'n', 't'] ++ blanks 1 :: number :: blanks 0
      :: (Patterns.literal [':'] ++ blanks 0
      :: (Patterns.literal ['"'] ++ { item := .many (· != '\n') 0 false, group := true }
      :: (Patterns.literal ['"'] ++ blanks 0
      :: (Patterns.literal ['['] ++ { item := .many (isWord alnum) 1 false, group := true }
      :: { item := .many (fun c => c != ']' && c != '\n') 0 false }
      :: (Patterns.literal [']'] ++ [blanks 0, { item := .lineEnd }])))))) := rfl

/-- A line ends behind its type, before the next record or the end. -/
theorem groups_lineEnd {rest : List Char} (next : rest.head?.all (· == 'C') = true) (previous : Option Char) :
    (matchHere [blanks 0, { item := .lineEnd }] previous ('\n' :: rest)).map Match.groups = some [] := by
  cases rest with
  | nil =>
      show (matchHere _ previous (['\n'] ++ [])).map Match.groups = _
      exact groups_passed rfl (Nat.zero_le _) rfl rfl
  | cons c rest =>
      obtain rfl : c = 'C' := by simpa using next
      show (matchHere _ previous ([] ++ '\n' :: 'C' :: rest)).map Match.groups = _
      refine groups_run rfl le_rfl (fun more after split some' within previous => ?_) rfl
      -- the line break alone, before the next record
      rcases more with _ | ⟨c, _ | ⟨d, more⟩⟩
      · exact absurd rfl some'
      · obtain ⟨-, rfl⟩ := List.cons.inj split
        rfl
      · obtain ⟨-, later⟩ := List.cons.inj split
        obtain ⟨rfl, -⟩ := List.cons.inj later
        rw [List.all_cons, List.all_cons] at within
        simp [isSpace] at within

theorem isWord_type (client : SeqClient) : client.type.all (isWord alnum) = true := by
  unfold SeqClient.type
  split_ifs
  · rfl
  · rfl

/-- No quote stands behind the one that ends the name, before the line ends. -/
theorem quote_last {line more after rest : List Char} (unquoted : '"' ∉ line)
    (split : '"' :: line ++ '\n' :: rest = more ++ after) (some' : more ≠ []) (whole : '\n' ∉ more) :
    after.head? ≠ some '"' := by
  intro quote
  obtain ⟨tail, rfl⟩ := List.head?_eq_some_iff.mp quote
  cases more with
  | nil => exact some' rfl
  | cons c more =>
      have later := (List.cons.inj split).2
      rcases List.append_eq_append_iff.mp later with ⟨gap, rfl, rest'⟩ | ⟨gap, rfl, rest'⟩
      · cases gap with
        | nil => cases rest'
        | cons d gap =>
            obtain ⟨rfl, -⟩ := List.cons.inj rest'
            exact whole (by simp)
      · cases gap with
        | nil => cases rest'
        | cons d gap =>
            obtain ⟨rfl, -⟩ := List.cons.inj rest'
            exact unquoted (by simp)

theorem groups_record {client : SeqClient} (whole : '\n' ∉ client.name) {rest : List Char}
    (next : rest.head?.all (· == 'C') = true) {previous : Option Char} (start : previous.all (· == '\n') = true) :
    (matchHere (clientLineRe alnum) previous (client.line ++ '\n' :: rest)).map Match.groups
      = some [Nat.toDigits 10 client.number, client.name, client.type] := by
  have text : client.line ++ '\n' :: rest = ['C', 'l', 'i', 'e', 'n', 't'] ++ ([' ']
      ++ (Nat.toDigits 10 client.number ++ ([' '] ++ ([':'] ++ ([' '] ++ (['"'] ++ (client.name
      ++ (['"'] ++ ([' '] ++ (['['] ++ (client.type ++ ([] ++ ([']'] ++ '\n' :: rest))))))))))))) := by
    simp [SeqClient.line]
  have digits : ∀ c ∈ Nat.toDigits 10 client.number, c.isDigit = true :=
    fun c member => Process.isDigit_pidText member
  rw [clientLineRe_eq, text, matchHere_lineStart start, groups_literal]
  refine groups_passed rfl le_rfl ?_ (groups_taken ?_ ?_ rfl (groups_passed rfl (Nat.zero_le _) rfl ?_))
  · cases number : Nat.toDigits 10 client.number with
    | nil => exact absurd number Nat.toDigits_ne_nil
    | cons c _ =>
        have first := Process.not_isSpace_digit (digits c (number ▸ List.mem_cons_self))
        simp [first]
  · exact List.all_eq_true.mpr fun c member => by simp [isDecimal, digitValue_digit (digits c member)]
  · exact List.length_pos_iff.mpr Nat.toDigits_ne_nil
  rw [groups_literal]
  refine groups_passed rfl (Nat.zero_le _) rfl ?_
  rw [groups_literal]
  refine groups_run ?_ (Nat.zero_le _) ?_ ?_
  · exact List.all_eq_true.mpr fun c member => bne_iff_ne.mpr fun same => whole (same ▸ member)
  · intro more after split some' within previous
    have line : '"' :: ([' ', '['] ++ client.type ++ [']']) ++ '\n' :: rest = more ++ after := by
      rw [← split]
      simp
    refine matchHere_elsewhere (quote_last ?_ line some' ?_)
    · unfold SeqClient.type
      split_ifs <;> decide
    · exact fun member => by simpa using List.all_eq_true.mp within '\n' member
  rw [groups_literal]
  refine groups_passed rfl (Nat.zero_le _) rfl ?_
  rw [groups_literal]
  refine groups_taken (isWord_type client) (Nat.succ_le_of_lt ?_) rfl (groups_passed rfl (Nat.zero_le _) rfl ?_)
  · unfold SeqClient.type
    split_ifs <;> decide
  rw [groups_literal]
  exact groups_lineEnd next _

/-! ### Every list -/

theorem line_whole {client : SeqClient} (whole : '\n' ∉ client.name) : '\n' ∉ client.line := by
  have digits : '\n' ∉ Nat.toDigits 10 client.number := fun member => by
    have digit := Process.isDigit_pidText member
    cases digit
  have type : '\n' ∉ client.type := by
    unfold SeqClient.type
    split_ifs <;> decide
  simp [SeqClient.line, whole, digits, type]

theorem line_last (client : SeqClient) : client.line.getLast? = some ']' :=
  List.getLast?_concat

theorem listing_cons (client : SeqClient) (clients : List SeqClient) :
    listing (client :: clients) = client.line ++ '\n' :: listing clients := by
  simp [listing]

/-- Where no name breaks the line, the records begin the lines. -/
theorem begins_record (whole : ∀ client ∈ clients, '\n' ∉ client.name) {prior here : List Char}
    (split : listing clients = prior ++ here) (start : prior.getLast?.all (· == '\n') = true) :
    ∃ todo, todo <:+ clients ∧ here = listing todo := by
  induction clients generalizing prior with
  | nil =>
      obtain ⟨-, rfl⟩ := List.append_eq_nil_iff.mp split.symm
      exact ⟨[], List.suffix_rfl, rfl⟩
  | cons client clients ih =>
      have apart := line_whole (whole client List.mem_cons_self)
      rw [listing_cons] at split
      rcases List.append_eq_append_iff.mp split with ⟨gap, rfl, later⟩ | ⟨gap, line, rfl⟩
      · cases gap with
        | nil =>
            rw [List.append_nil, line_last] at start
            cases start
        | cons c gap =>
            obtain ⟨rfl, onward⟩ := List.cons.inj later
            have start' : gap.getLast?.all (· == '\n') = true := by
              cases last : gap.getLast? with
              | none => rfl
              | some d => simpa [List.getLast?_append, List.getLast?_cons, last] using start
            obtain ⟨todo, suffix', rfl⟩ :=
              ih (fun other member => whole other (List.mem_cons_of_mem _ member)) onward start'
            exact ⟨todo, suffix'.trans (List.suffix_cons client clients), rfl⟩
      · cases last : prior.getLast? with
        | none =>
            obtain rfl := List.getLast?_eq_none_iff.mp last
            refine ⟨client :: clients, List.suffix_rfl, ?_⟩
            rw [listing_cons, line]
            rfl
        | some c =>
            rw [last] at start
            obtain rfl : c = '\n' := by simpa using start
            rw [line] at apart
            exact absurd (List.mem_append_left gap (List.mem_of_getLast? last)) apart

/-- What is read of a list whose names do not break the line are its records. -/
theorem mem_records (whole : ∀ client ∈ clients, '\n' ∉ client.name) {groups : List (List Char)}
    (read : groups ∈ findall (clientLineRe alnum) (listing clients)) :
    ∃ client ∈ clients, groups = [Nat.toDigits 10 client.number, client.name, client.type] := by
  obtain ⟨prior, here, split, matched⟩ := mem_findall read
  have start : prior.getLast?.all (· == '\n') = true := by
    by_contra other
    rw [clientLineRe_eq] at matched
    unfold matchHere at matched
    rw [if_neg other] at matched
    cases matched
  obtain ⟨todo, among, rfl⟩ := begins_record whole split start
  cases todo with
  | nil =>
      rw [clientLineRe_eq, matchHere_lineStart start] at matched
      cases matched
  | cons client rest =>
      have member : client ∈ clients := among.subset List.mem_cons_self
      have next : (listing rest).head?.all (· == 'C') = true := by
        cases rest with
        | nil => rfl
        | cons other rest => simp [listing_cons, SeqClient.line]
      rw [listing_cons, groups_record (whole client member) next start] at matched
      exact ⟨client, member, (Option.some_inj.mp matched).symm⟩

theorem unforged_of_whole (whole : ∀ client ∈ clients, '\n' ∉ client.name) : Unforged alnum clients := by
  intro _ digits name read _
  obtain ⟨client, member, same⟩ := mem_records whole read
  simp only [List.cons.injEq, and_true] at same
  obtain ⟨rfl, rfl, type⟩ := same
  refine ⟨client, member, ?_, (int_toDigits _).symm, rfl⟩
  by_contra user
  unfold SeqClient.type at type
  rw [if_neg user] at type
  exact absurd type (by decide)

/-- **An interface is not taken from a client's name**, exactly where each kernel client's line that is read
under a name of its own is a kernel client's; so it is where no name breaks the line. -/
theorem unspoofed_iff (alnum : Char → Bool) (clients : List SeqClient) :
    (Unspoofed alnum clients ↔ Unforged alnum clients)
      ∧ ((∀ client ∈ clients, '\n' ∉ client.name) → Unspoofed alnum clients) := by
  have clear (unforged : Unforged alnum clients) : Unspoofed alnum clients := by
    intro deviceName serial cards number chosen
    cases read : kernelClients alnum (listing clients) with
    | error refused =>
        simp [selectSeqClient, read, bind, Except.bind] at chosen
    | ok entries =>
        obtain ⟨name, member, once, matched, carded⟩ := selectSeqClient_some read chosen
        obtain ⟨distinct, entry_iff, counted⟩ := kernelClients_read read
        obtain ⟨digits, there, rfl⟩ := (entry_iff _).mp member
        obtain ⟨client, listed, kernel, same, rfl⟩ :=
          unforged distinct digits name there ((counted name).symm.trans once)
        exact ⟨client, listed, same, kernel, matched, carded⟩
  refine ⟨⟨fun unspoofed distinct digits name there once => ?_, clear⟩,
    fun whole => clear (unforged_of_whole whole)⟩
  obtain ⟨entries, read⟩ : ∃ entries, kernelClients alnum (listing clients) = .ok entries :=
    kernelClients_ok distinct
  obtain ⟨-, entry_iff, counted⟩ := kernelClients_read read
  have member : (int digits, name) ∈ entries := (entry_iff _).mpr ⟨digits, there, rfl⟩
  obtain ⟨client, listed, same, kernel, -, carded⟩ := unspoofed _ _ _ _
    (selectSeqClient_named read member ((counted name).trans once))
  exact ⟨client, listed, kernel, same, by simpa using carded _ rfl⟩

/-- "System", and a client of user space that is named `Fireface"`, a line break, `[Kernel]`, a line break
and `x`. -/
def spoofing : List SeqClient :=
  [⟨0, true, ['S', 'y', 's', 't', 'e', 'm']⟩,
    ⟨130, false, ['F', 'i', 'r', 'e', 'f', 'a', 'c', 'e', '"', '\n'] ++ ['['] ++ kernelType ++ [']', '\n', 'x']⟩]

/-- The client of user space is bound. -/
theorem userClient_bound : ¬ ∀ (alnum : Char → Bool) (clients : List SeqClient),
    (clients.map SeqClient.number).Nodup → Unspoofed alnum clients := by
  intro always
  obtain ⟨client, member, number, kernel, -⟩ := always (fun _ => false) spoofing (by decide)
    ['F', 'i', 'r', 'e', 'f', 'a', 'c', 'e'] [] (some [['F', 'i', 'r', 'e', 'f', 'a', 'c', 'e']]) 130
    (by decide +kernel)
  rcases List.mem_cons.mp member with rfl | member
  · exact absurd number (by decide)
  · rw [List.mem_singleton.mp member] at kernel
    exact absurd kernel (by decide)

end OscmixDesk.Discovery
