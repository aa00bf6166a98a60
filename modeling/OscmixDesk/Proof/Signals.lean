/-
**A signal reaches only the process that was identified.**

While a process lives its number is not given to another, so what is read under the number between the opening
of a pidfd and a signal that arrives is read of that one process (`Evolves.pinned`). Each read of the checks is
followed to what it saw (`…_finds`), and the checks that the signal waits for are made behind the opening.
-/

import OscmixDesk.Model.Processes
import OscmixDesk.Proof.Owners

namespace OscmixDesk.Process

open Checks Effects Observed Text

/-! ### Processes over time -/

/-- How the table of processes may change: at any time a number is one process's, a process keeps its number,
and one that is there twice is there in between. -/
structure Evolves (world : ℕ → Snapshot) : Prop where
  distinct : ∀ t, ((world t).processes.map Proc.number).Nodup
  number : ∀ t u, ∀ p ∈ (world t).processes, ∀ q ∈ (world u).processes, p.born = q.born → p.number = q.number
  lasts : ∀ t u v, t ≤ u → u ≤ v → ∀ p ∈ (world t).processes, ∀ r ∈ (world v).processes, p.born = r.born →
    ∃ q ∈ (world u).processes, q.born = p.born

theorem pidText_injective {m n : ℕ} (same : pidText m = pidText n) : m = n := by
  have back := congrArg (Nat.ofDigitChars 10 · 0) same
  simpa [pidText, Nat.ofDigitChars_ten_toDigits] using back

theorem Snapshot.entry_mem {w : Snapshot} {name : List Char} {p : Proc} (known : w.entry name = some p) :
    p ∈ w.processes ∧ pidText p.number = name := by
  unfold Snapshot.entry at known
  exact ⟨List.mem_of_find?_eq_some known, by simpa using List.find?_some known⟩

theorem Evolves.entry_number {world : ℕ → Snapshot} (evolves : Evolves world) {t : ℕ} {p : Proc}
    (listed : p ∈ (world t).processes) : (world t).entry (pidText p.number) = some p := by
  cases known : (world t).entry (pidText p.number) with
  | none =>
      unfold Snapshot.entry at known
      have none' := List.find?_eq_none.mp known p listed
      simp at none'
  | some q =>
      obtain ⟨listed', same⟩ := Snapshot.entry_mem known
      have number := pidText_injective same
      exact congrArg some (List.inj_on_of_nodup_map (evolves.distinct t) listed' listed number)

/-- While the process lives it is the one that is there under its number. -/
theorem Evolves.there {world : ℕ → Snapshot} (evolves : Evolves world) {t u v : ℕ} {name : List Char} {p r : Proc}
    (opened : (world t).entry name = some p) (before : t ≤ u) (after : u ≤ v) (lives : r ∈ (world v).processes)
    (same : r.born = p.born) : ∃ q, (world u).entry name = some q ∧ q.born = p.born := by
  obtain ⟨listed, rfl⟩ := Snapshot.entry_mem opened
  obtain ⟨q, there, born⟩ := evolves.lasts t u v before after p listed r lives same.symm
  have found := evolves.entry_number there
  rw [evolves.number u t q there p listed born] at found
  exact ⟨q, found, born⟩

/-- Who is read under the number while the process lives is the process. -/
theorem Evolves.pinned {world : ℕ → Snapshot} (evolves : Evolves world) {t u v : ℕ} {name : List Char} {p r : Proc}
    (opened : (world t).entry name = some p) (before : t ≤ u) (after : u ≤ v) (lives : r ∈ (world v).processes)
    (same : r.born = p.born) {q : Proc} (read : (world u).entry name = some q) : q.born = p.born := by
  obtain ⟨other, found, born⟩ := evolves.there opened before after lives same
  obtain rfl := Option.some_inj.mp (found.symm.trans read)
  exact born

/-! ### The parent's number -/

theorem not_isSpace_alpha {c : Char} (alpha : c.isAlpha = true) : isSpace c = false := by
  have range : (65 ≤ c.toNat ∧ c.toNat ≤ 90) ∨ (97 ≤ c.toNat ∧ c.toNat ≤ 122) := by
    rcases (Bool.or_eq_true _ _).mp alpha with upper | lower
    · exact Or.inl (of_decide_eq_true upper)
    · obtain ⟨low, high⟩ := (Bool.and_eq_true _ _).mp lower
      exact Or.inr ⟨of_decide_eq_true low, of_decide_eq_true high⟩
  simp only [isSpace, Bool.or_eq_false_iff, Bool.and_eq_false_iff, decide_eq_false_iff_not, beq_eq_false_iff_ne]
  omega

theorem not_isSpace_digit {c : Char} (digit : c.isDigit = true) : isSpace c = false := by
  have range : 48 ≤ c.toNat ∧ c.toNat ≤ 57 := by
    obtain ⟨low, high⟩ := (Bool.and_eq_true _ _).mp digit
    exact ⟨of_decide_eq_true low, of_decide_eq_true high⟩
  simp only [isSpace, Bool.or_eq_false_iff, Bool.and_eq_false_iff, decide_eq_false_iff_not, beq_eq_false_iff_ne]
  omega

theorem isDigit_pidText {n : ℕ} {c : Char} (member : c ∈ pidText n) : c.isDigit = true :=
  Nat.isDigit_of_mem_toDigits (by decide) (by decide) member

/-- The number of a process is a field. -/
def pidField (n : ℕ) : Field :=
  ⟨pidText n, Nat.toDigits_ne_nil, fun _ member => not_isSpace_digit (isDigit_pidText member)⟩

/-- The state is one. -/
def Proc.letterField (process : Proc) : Field :=
  ⟨[process.state], List.cons_ne_nil _ _, fun c member => by
    rw [List.mem_singleton.mp member]
    exact not_isSpace_alpha process.letter⟩

theorem behind_last {mark : Char} {front rest : List Char} (apart : mark ∉ rest) :
    ((front ++ mark :: rest).reverse.takeWhile (· ≠ mark)).reverse = rest := by
  have others : ∀ c ∈ rest.reverse, decide (c ≠ mark) = true := fun c member => by
    have : c ≠ mark := fun same => apart (same ▸ List.mem_reverse.mp member)
    simpa using this
  rw [List.reverse_append, List.reverse_cons, List.append_assoc, List.takeWhile_append_of_pos others,
    List.singleton_append, List.takeWhile_cons_of_neg (by simp), List.append_nil, List.reverse_reverse]

/-- The fourth field is the parent's number, whatever the command is called. -/
theorem fieldFour_stat (process : Proc) : fieldFour process.stat = some (pidText process.parent) := by
  let rest := (pidField process.parent).text ++ ' ' :: process.counters
  let behind := ' ' :: (process.letterField.text ++ ' ' :: rest)
  have split : process.stat = (pidText process.number ++ [' ', '('] ++ process.comm) ++ ')' :: behind := by
    simp [Proc.stat, behind, rest, pidField, Proc.letterField]
  have apart : ')' ∉ behind := by
    have state : process.state ≠ ')' := fun same => by
      have letter := process.letter
      rw [same] at letter
      cases letter
    have digits : ')' ∉ pidText process.parent := fun member => by
      have digit := isDigit_pidText member
      cases digit
    simp [behind, rest, pidField, Proc.letterField, state.symm, digits, process.closed]
  obtain ⟨most, length⟩ : ∃ most, behind.length = most + 2 :=
    ⟨(rest.length + 1), by simp [behind, Proc.letterField]⟩
  have read : splitBlanks (most + 2) behind
      = process.letterField.text :: (pidField process.parent).text :: splitBlanks most process.counters := by
    have blank : ∀ c ∈ [' '], isSpace c = true := fun c member => by
      rw [List.mem_singleton.mp member]
      decide
    show splitBlanks (most + 2) ([' '] ++ (process.letterField.text ++ ' ' :: rest)) = _
    rw [splitBlanks_blanks (most + 2) blank, splitBlanks_field, splitBlanks_field]
  unfold fieldFour
  rw [if_pos (by rw [split]; simp), split]
  simp only [behind_last apart, length, read]
  rfl

/-! ### Reading a process -/

variable {name : List Char} {α : Type}

/-- The process of a directory, and something of it. -/
def Shown (name : List Char) (fact : Proc → Prop) (w : Snapshot) : Prop :=
  ∃ p, w.entry name = some p ∧ fact p

theorem ofEntry_finds (file : Proc → Except Fault α) : Finds (ofEntry name file) fun value first last =>
    Seen first last (Shown name fun p => file p = .ok value) :=
  look_seen fun w value read => by
    cases known : w.entry name with
    | none =>
        rw [known] at read
        cases read
    | some p =>
        rw [known] at read
        exact ⟨p, known, read⟩

/-- A file that every process has is read, or there is no process. -/
theorem attempt_entry (field : Proc → α) : Finds (attempt (ofEntry name fun p => return field p))
    fun value first last => Seen first last fun w => (w.entry name).map field = value :=
  attempt_seen
    (fun w value read => by
      cases known : w.entry name with
      | none =>
          rw [known] at read
          cases read
      | some p =>
          rw [known] at read
          exact congrArg some (Except.ok.inj read))
    (fun w problem read => by
      cases known : w.entry name with
      | none => rfl
      | some p =>
          rw [known] at read
          cases read)

theorem ppid_finds : Finds (ppid name) fun value first last =>
    Seen first last fun w => (w.entry name).map (fun p => pidText p.parent) = value :=
  ((attempt_entry Proc.stat).bind fun stat => finds_pure (stat.bind fieldFour)).imp fun value first last _ => by
    rintro ⟨stat, middle, -, later, seen, rfl, rfl⟩
    exact seen.imp fun w known => by
      cases entry : w.entry name with
      | none =>
          rw [entry] at known
          rw [← known]
          rfl
      | some p =>
          rw [entry] at known
          rw [← known]
          exact (fieldFour_stat p).symm

/-! ### Who holds the socket -/

/-- One of its file descriptors links there. -/
def Proc.Links (process : Proc) (handle : Handle) : Prop :=
  ∃ handles fd, process.handles = some handles ∧ handles.lookup fd = some (some handle)

theorem elim_ok {value : α} {known : Option α} {problem : Fault}
    (read : (known.elim (throw problem) pure : Except Fault α) = .ok value) : known = some value := by
  cases known with
  | none => cases read
  | some other => exact congrArg some (Except.ok.inj read)

theorem readLink_finds (fd : ℕ) : Finds (attempt (ofEntry name fun process =>
    ((process.handles.bind (·.lookup fd)).join).elim (throw .os) pure)) fun target first last =>
      ∀ handle, target = some handle → Seen first last (Shown name (·.Links handle)) :=
  (ofEntry_finds _).attempt.imp fun target first last _ found handle same =>
    (found handle same).imp fun w ⟨p, entry, read⟩ => by
      obtain ⟨handles, known, link⟩ := Option.bind_eq_some_iff.mp (Option.join_eq_some_iff.mp (elim_ok read))
      exact ⟨p, entry, handles, fd, known, link⟩

theorem readEntry_finds (number : ℕ) : Finds (readEntry number) fun entry first last =>
    entry.pid = number ∧ ∀ handles, entry.handles = some handles → ∀ handle, some handle ∈ handles →
      Seen first last (Shown (pidText number) (·.Links handle)) := by
  unfold readEntry
  refine (Finds.andThen (fun _ entry first last => entry.pid = number ∧ ∀ handles, entry.handles = some handles →
    ∀ handle, some handle ∈ handles → Seen first last (Shown (pidText number) (·.Links handle)))
    (ofEntry_finds _).attempt fun listed => ?_).imp ?_
  · cases listed with
    | none =>
        refine (finds_pure _).imp fun entry first last _ ⟨same, _⟩ => ?_
        subst same
        exact ⟨rfl, fun handles none' => by cases none'⟩
    | some handles =>
        refine ((Finds.mapM fun handle _ => readLink_finds handle).bind fun targets =>
          finds_pure (⟨number, some targets⟩ : Entry)).imp ?_
        rintro entry first last - ⟨targets, middle, -, later, pairs, rfl, rfl⟩
        refine ⟨rfl, fun handles' same handle member => ?_⟩
        obtain rfl := Option.some_inj.mp same
        obtain ⟨fd, -, before, after, up, down, seen⟩ := exists_left pairs member
        exact (seen handle rfl).widen up down
  · rintro entry first last - ⟨listed, middle, before, after, -, pid, links⟩
    exact ⟨pid, fun handles same handle member => (links handles same handle member).widen before (Later.refl _)⟩

theorem mapError_ok {ε : Type} {change : ε → Fault} {result : Except ε α} {value : α}
    (known : result.mapError change = .ok value) : result = .ok value := by
  cases result with
  | error problem => cases known
  | ok other => exact congrArg _ (Except.ok.inj known)

/-- The owner that is found holds a socket of the inodes. -/
theorem ownerOfSockets_holds {inodes : List (List Char)} {entries : List Entry} {pid : ℕ}
    (owner : ownerOfSockets inodes entries = .ok (some pid)) : ∃ entry ∈ entries, entry.pid = pid
      ∧ ∃ handles, entry.handles = some handles ∧ ∃ inode ∈ inodes, some (Handle.socket inode) ∈ handles := by
  unfold ownerOfSockets at owner
  split_ifs at owner with none'
  · cases owner
  · obtain ⟨-, head⟩ := guard_eq_ok.mp owner
    have member := List.mem_of_mem_head? (pure_eq_ok.mp head)
    obtain ⟨entry, listed, same⟩ := List.mem_map.mp (List.mem_dedup.mp member)
    obtain ⟨listed, holds⟩ := List.mem_filter.mp listed
    obtain ⟨handles, known, holds⟩ := (Option.any_eq_true _ _).mp holds
    obtain ⟨handle, inside, among⟩ := List.any_eq_true.mp holds
    obtain ⟨target, rfl, among⟩ := (Option.any_eq_true _ _).mp among
    cases target with
    | socket inode => exact ⟨entry, listed, same, handles, known, inode, by simpa [Handle.among] using among, inside⟩
    | other target => cases among

theorem numbers_finds : Finds numbers fun listed first last =>
    Seen first last fun w => w.processes.map Proc.number = listed :=
  look_seen fun _ _ read => Except.ok.inj read

theorem readOwner_finds (inodes : List (List Char)) : Finds (readOwner inodes) fun owner first last =>
    ∀ pid, owner = some pid → ∃ inode ∈ inodes, Seen first last (Shown (pidText pid) (·.Links (.socket inode))) := by
  unfold readOwner
  split_ifs with none'
  · exact (finds_pure _).imp fun owner first last _ ⟨same, _⟩ pid some' => by
      rw [same] at some'
      cases some'
  · refine (numbers_finds.bind fun listed => (Finds.mapM fun number _ => readEntry_finds number).bind fun entries =>
      finds_lift _).imp ?_
    rintro owner first last - ⟨listed, middle, later, -, -, entries, third, -, -, pairs, rfl, read⟩ pid rfl
    obtain ⟨entry, member, same, handles, known, inode, among, link⟩ := ownerOfSockets_holds (mapError_ok read)
    obtain ⟨number, -, before, after, up, down, pid', links⟩ := exists_left pairs member
    refine ⟨inode, among, ?_⟩
    rw [← same, pid']
    exact (links handles known _ link).widen (later.trans up) down

/-- Who is read to hold the endpoint's listening socket. -/
theorem readControlSocketOwner_finds (path : List Char) : Finds (readControlSocketOwner path)
    fun owner first last => ∀ pid, owner = some pid → ∃ inode,
      Seen first last (fun w => ∃ inodes, listeningInodes path w.unix = .ok inodes ∧ inode ∈ inodes)
        ∧ Seen first last (Shown (pidText pid) (·.Links (.socket inode))) := by
  have table : Finds (look fun w => (listeningInodes path w.unix).mapError faultOf : Look _) fun inodes first last =>
      Seen first last fun w => listeningInodes path w.unix = .ok inodes :=
    look_seen fun w inodes read => mapError_ok read
  refine (table.bind readOwner_finds).imp ?_
  rintro owner first last - ⟨inodes, middle, before, after, listed, held⟩ pid same
  obtain ⟨inode, among, links⟩ := held pid same
  exact ⟨inode, (listed.widen (Later.refl _) after).imp fun w known => ⟨inodes, known, among⟩,
    links.widen before (Later.refl _)⟩

/-! ### What it runs and bridges -/

/-- A candidate bridges the client. -/
def Bridges (candidate : List Char) (client : ℕ) (first last : Moment Snapshot) : Prop :=
  Seen first last (Shown candidate fun p => bridgedBy (splitNul p.cmdline) = some client)
    ∧ Seen first last (Shown candidate fun p => ∃ executable, p.exe = some executable
      ∧ pathName executable = alsaseqio)

theorem Bridges.widen {candidate : List Char} {client : ℕ} {start first last stop : Moment Snapshot}
    (bridges : Bridges candidate client first last) (before : Later start first) (after : Later last stop) :
    Bridges candidate client start stop :=
  ⟨bridges.1.widen before after, bridges.2.widen before after⟩

theorem bridge_finds (candidate : List Char) : Finds (bridge candidate) fun found first last =>
    ∀ client, found = some client → Bridges candidate client first last := by
  unfold bridge
  refine (Finds.andThen (fun cmdline found first last => ∀ client, found = some client → ∃ text, cmdline = some text
    ∧ bridgedBy (splitNul text) = some client ∧ Seen first last (Shown candidate fun p =>
      ∃ executable, p.exe = some executable ∧ pathName executable = alsaseqio))
    (attempt_entry Proc.cmdline) fun cmdline => ?_).imp ?_
  · cases cmdline with
    | none =>
        exact (finds_pure _).imp fun found first last _ ⟨same, _⟩ client some' => by
          rw [same] at some'
          cases some'
    | some cmdline =>
        refine ((ofEntry_finds _).attempt.bind fun executable => finds_pure _).imp ?_
        rintro found first last - ⟨executable, middle, -, -, seen, rfl, rfl⟩ client known
        split_ifs at known with runs
        obtain ⟨path, rfl, named⟩ := (Option.any_eq_true _ _).mp runs
        exact ⟨cmdline, rfl, known, (seen path rfl).imp fun w ⟨p, entry, read⟩ =>
          ⟨p, entry, path, elim_ok read, by simpa using named⟩⟩
  · rintro result first last - ⟨cmdline, middle, before, after, read, held⟩ client same
    obtain ⟨text, rfl, bridges, seen⟩ := held client same
    refine ⟨(read.widen (Later.refl _) after).imp fun w known => ?_, seen.widen before (Later.refl _)⟩
    obtain ⟨p, entry, rfl⟩ := Option.map_eq_some_iff.mp known
    exact ⟨p, entry, bridges⟩

/-- A child's parent. -/
def HasParent (parent : List Char) (process : Proc) : Prop :=
  pidText process.parent = parent

theorem childOf_finds (pid : List Char) (number : ℕ) : Finds (childOf pid number) fun found first last =>
    ∀ child, found = some child → Seen first last (Shown child (HasParent pid)) := by
  refine (ppid_finds.bind fun parent => finds_pure _).imp ?_
  rintro found first last - ⟨parent, middle, -, -, seen, rfl, rfl⟩ child known
  split_ifs at known with same
  obtain rfl := Option.some_inj.mp known
  refine seen.imp fun w read => ?_
  obtain ⟨p, entry, parent'⟩ := Option.map_eq_some_iff.mp (read.trans same)
  exact ⟨p, entry, parent'⟩

theorem childrenOf_finds (pid : List Char) : Finds (childrenOf pid) fun found first last =>
    ∀ child ∈ found, Seen first last (Shown child (HasParent pid)) := by
  refine (numbers_finds.bind fun listed => (Finds.mapM fun number _ => childOf_finds pid number).bind fun found =>
    finds_pure _).imp ?_
  rintro result first last - ⟨listed, middle, later, -, -, found, third, -, -, pairs, rfl, rfl⟩ child member
  obtain ⟨known, inside, same⟩ := List.mem_filterMap.mp member
  obtain ⟨number, -, before, after, up, down, seen⟩ := exists_left pairs inside
  exact (seen child same).widen (later.trans up) down

theorem parentOf_finds : Finds (parentOf name) fun found first last =>
    ∀ parent ∈ found, Seen first last (Shown name (HasParent parent)) := by
  refine (ppid_finds.bind fun parent => finds_pure _).imp ?_
  rintro found first last - ⟨parent, middle, -, -, seen, rfl, rfl⟩ other member
  refine seen.imp fun w read => ?_
  obtain ⟨p, entry, same⟩ := Option.map_eq_some_iff.mp (read.trans (Option.mem_toList.mp member))
  exact ⟨p, entry, same⟩

/-- A child of the process or its parent bridges the client. -/
def Bridged (name : List Char) (client : ℕ) (first last : Moment Snapshot) : Prop :=
  ∃ candidate, (Seen first last (Shown candidate (HasParent name))
      ∨ Seen first last (Shown name (HasParent candidate)))
    ∧ Bridges candidate client first last

theorem bridgedClient_finds : Finds (bridgedClient name) fun found first last =>
    ∀ client, found = some client → Bridged name client first last := by
  refine ((childrenOf_finds name).bind fun children => parentOf_finds.bind fun parents =>
    (Finds.mapM fun candidate _ => bridge_finds candidate).bind fun clients => finds_pure _).imp ?_
  rintro result first last - ⟨children, second, a, b, isChild, parents, third, c, d, isParent, clients, fourth, e, f,
    pairs, rfl, rfl⟩ client known
  split_ifs at known
  obtain ⟨found, inside, rfl⟩ := List.mem_filterMap.mp (List.mem_of_mem_head? known)
  obtain ⟨candidate, member, before, after, up, down, bridges⟩ := exists_left pairs inside
  refine ⟨candidate, ?_, (bridges client rfl).widen ((a.trans c).trans up) down⟩
  rcases List.mem_append.mp member with child | parent
  · exact Or.inl ((isChild candidate child).widen (Later.refl _) b)
  · exact Or.inr ((isParent candidate parent).widen a d)

/-- The serial that the sequencer's list shows for the client. -/
def ShowsSerial (client : ℕ) (serial : List Char) (w : Snapshot) : Prop :=
  ∃ text, w.clients = some text ∧ serialOf client text = some serial

theorem clientSerial_finds (client : Option ℕ) : Finds (clientSerial client) fun found first last =>
    ∀ serial, found = some serial → ∃ number, client = some number ∧ Seen first last (ShowsSerial number serial) := by
  cases client with
  | none =>
      exact (finds_pure _).imp fun found first last _ ⟨same, _⟩ serial some' => by
        rw [same] at some'
        cases some'
  | some client =>
      have read : Finds (look fun w => w.clients.elim (throw .os) pure : Look (List Char)) fun text first last =>
          Seen first last fun w => w.clients = some text := look_seen fun _ _ read => elim_ok read
      refine (read.attempt.bind fun text => finds_pure _).imp ?_
      rintro found first last - ⟨text, middle, -, -, seen, rfl, rfl⟩ serial known
      obtain ⟨text, rfl, serial'⟩ := Option.bind_eq_some_iff.mp known
      exact ⟨client, rfl, (seen text rfl).imp fun w same => ⟨text, same, serial'⟩⟩

/-- What is read of a process that runs the backend of the endpoint. -/
structure Associated (path : List Char) (holder : BackendOwner) (first last : Moment Snapshot) : Prop where
  command : Seen first last (Shown (pidText holder.pid) fun p => runsEndpoint path (argsOf p.cmdline) = true)
  executable : Seen first last (Shown (pidText holder.pid) fun p => ∃ executable, p.exe = some executable
    ∧ pathName executable = oscmix)
  client : ∀ client, holder.client = some client → Bridged (pidText holder.pid) client first last
  serial : ∀ serial, holder.serial = some serial →
    ∃ client, holder.client = some client ∧ Seen first last (ShowsSerial client serial)

/-- And that holds its socket. -/
structure Coordinated (path : List Char) (holder : BackendOwner) (first last : Moment Snapshot) : Prop
    extends Associated path holder first last where
  socket : ∃ inode, Seen first last (fun w => ∃ inodes, listeningInodes path w.unix = .ok inodes ∧ inode ∈ inodes)
    ∧ Seen first last (Shown (pidText holder.pid) (·.Links (.socket inode)))

theorem Bridged.widen {client : ℕ} {start first last stop : Moment Snapshot}
    (bridged : Bridged name client first last) (before : Later start first) (after : Later last stop) :
    Bridged name client start stop := by
  obtain ⟨candidate, near, bridges⟩ := bridged
  exact ⟨candidate, near.imp (·.widen before after) (·.widen before after), bridges.widen before after⟩

theorem Associated.widen {path : List Char} {holder : BackendOwner} {start first last stop : Moment Snapshot}
    (associated : Associated path holder first last) (before : Later start first) (after : Later last stop) :
    Associated path holder start stop where
  command := associated.command.widen before after
  executable := associated.executable.widen before after
  client := fun client same => (associated.client client same).widen before after
  serial := fun serial same => by
    obtain ⟨client, known, seen⟩ := associated.serial serial same
    exact ⟨client, known, seen.widen before after⟩

theorem controlHolder_finds (path : List Char) : Finds (controlHolder path) fun found first last =>
    ∀ holder, found = some holder → holder.oscmix = true → Coordinated path holder first last := by
  unfold controlHolder
  refine (Finds.andThen (fun owner found first last => ∀ holder, found = some holder → holder.oscmix = true →
    owner = some holder.pid ∧ Associated path holder first last)
    (readControlSocketOwner_finds path) fun owner => ?_).imp ?_
  · cases owner with
    | none =>
        exact (finds_pure _).imp fun found first last _ ⟨same, _⟩ holder some' => by
          rw [same] at some'
          cases some'
    | some owner =>
        refine ((ofEntry_finds _).bind fun cmdline => (ofEntry_finds _).bind fun executable =>
          Finds.ite (fun _ => finds_pure _) fun _ => bridgedClient_finds.bind fun client =>
            (clientSerial_finds client).bind fun serial => finds_pure _).imp ?_
        rintro found first last - ⟨cmdline, second, a, b, command, executable, third, c, d, runs, rest⟩ holder rfl yes
        rcases rest with ⟨-, same, -⟩ | ⟨fits, client, fourth, e, f, bridged, serial, fifth, g, h, shows, same, rfl⟩
        · obtain rfl := Option.some_inj.mp same
          cases yes
        · obtain rfl := Option.some_inj.mp same
          obtain ⟨named, runs'⟩ := not_or.mp fits
          refine ⟨rfl, ?_, ?_, fun client' same => ?_, fun serial' same => ?_⟩
          · refine (command.widen (Later.refl _) b).imp fun w ⟨p, entry, read⟩ => ⟨p, entry, ?_⟩
            obtain rfl := Except.ok.inj read
            simpa using runs'
          · exact (runs.widen a d).imp fun w ⟨p, entry, read⟩ => ⟨p, entry, executable, elim_ok read,
              by simpa using named⟩
          · exact (bridged client' same).widen (a.trans c) (g.trans h)
          · obtain ⟨number, known, seen⟩ := shows serial' same
            exact ⟨number, known, seen.widen ((a.trans c).trans e) h⟩
  · rintro found first last - ⟨owner, middle, before, after, held, associated⟩ holder same yes
    obtain ⟨rfl, runs⟩ := associated holder same yes
    obtain ⟨inode, listed, links⟩ := held _ rfl
    exact { runs.widen before (Later.refl _) with
      socket := ⟨inode, listed.widen (Later.refl _) after, links.widen (Later.refl _) after⟩ }

/-! ### The user and the session -/

theorem ownBackend_finds (uid number : ℕ) : Finds (ownBackend uid number) fun found first last =>
    ∀ own, found = some own → own = number ∧ Seen first last (Shown (pidText number) (·.uid = uid)) := by
  refine ((attempt_entry Proc.uid).bind fun owner => Finds.ite (fun _ => finds_pure _) fun _ =>
    (attempt_entry Proc.comm).bind fun comm => (attempt_entry Proc.cmdline).bind fun cmdline => finds_pure _).imp ?_
  rintro found first last - ⟨owner, middle, before, after, seen, rest⟩ own rfl
  rcases rest with ⟨-, same, -⟩ | ⟨mine, comm, third, -, -, -, cmdline, fourth, -, -, -, same, rfl⟩
  · cases same
  · split_ifs at same
    refine ⟨Option.some_inj.mp same, (seen.widen (Later.refl _) after).imp fun w known => ?_⟩
    rw [not_not.mp mine] at known
    exact Option.map_eq_some_iff.mp known

/-- A process that is found is read to be the user's. -/
theorem findStaleBackends_finds (uid : ℕ) : Finds (findStaleBackends uid) fun found first last =>
    ∀ number ∈ found, Seen first last (Shown (pidText number) (·.uid = uid)) := by
  refine (numbers_finds.bind fun listed => (Finds.mapM fun number _ => ownBackend_finds uid number).bind
    fun own => finds_pure _).imp ?_
  rintro result first last - ⟨listed, middle, later, -, -, own, third, -, -, pairs, rfl, rfl⟩ number member
  obtain ⟨known, inside, same⟩ := List.mem_filterMap.mp member
  obtain ⟨item, -, before, after, up, down, owned⟩ := exists_left pairs inside
  obtain ⟨rfl, seen⟩ := owned number same
  exact seen.widen (later.trans up) down

/-- What is read of a process whose parent is no session: its parent's number, and then what runs there. -/
def Unsupervised (name : List Char) (first last : Moment Snapshot) : Prop :=
  Seen first last (fun w => w.entry name = none)
    ∨ ∃ parent middle, Later first middle ∧ Later middle last ∧ Seen first middle (Shown name (HasParent parent))
      ∧ (parent = ['1'] ∨ Seen middle last fun w => ∀ p, w.entry parent = some p → runsSession p.cmdline = false)

theorem supervisingSession_finds : Finds (supervisingSession name) fun found first last =>
    found = none → Unsupervised name first last := by
  unfold supervisingSession
  refine (Finds.andThen (fun parent found first last => found = none → ∀ text, parent = some text → text = ['1']
    ∨ Seen first last fun w => ∀ p, w.entry text = some p → runsSession p.cmdline = false)
    ppid_finds fun parent => ?_).imp ?_
  · cases parent with
    | none => exact (finds_pure _).imp fun _ _ _ _ _ _ text none' => by cases none'
    | some parent =>
        refine (Finds.ite (fun _ => finds_pure _) fun _ => (attempt_entry Proc.cmdline).bind fun cmdline =>
          finds_pure _).imp ?_
        rintro found first last - (⟨one, -⟩ | ⟨-, cmdline, middle, -, -, seen, rfl, rfl⟩) none' text same
        · exact Or.inl (Option.some_inj.mp same ▸ one)
        · obtain rfl := Option.some_inj.mp same
          refine Or.inr (seen.imp fun w known p entry => ?_)
          rw [entry] at known
          subst known
          split_ifs at none' with runs
          simpa using runs
  · rintro found first last - ⟨parent, middle, before, after, read, seen⟩ none'
    cases parent with
    | none =>
        exact Or.inl ((read.widen (Later.refl _) after).imp fun w known => Option.map_eq_none_iff.mp known)
    | some text =>
        exact Or.inr ⟨text, middle, before, after, read.imp fun w known => Option.map_eq_some_iff.mp known,
          seen none' text rfl⟩

/-! ### The checks behind the opening -/

/-- What the checks behind the opening of a pidfd read under the number. -/
structure Rechecked (uid pid : ℕ) (path : List Char) (device : Discovery.Device) (first last : Moment Snapshot) :
    Prop where
  socket : ∃ inode, Seen first last (fun w => ∃ inodes, listeningInodes path w.unix = .ok inodes ∧ inode ∈ inodes)
    ∧ Seen first last (Shown (pidText pid) (·.Links (.socket inode)))
  command : Seen first last (Shown (pidText pid) fun p => runsEndpoint path (argsOf p.cmdline) = true)
  executable : Seen first last (Shown (pidText pid) fun p => ∃ executable, p.exe = some executable
    ∧ pathName executable = oscmix)
  bridge : ∃ client, device.client = some client ∧ Bridged (pidText pid) client first last
    ∧ Seen first last (ShowsSerial client device.serial)
  user : Seen first last (Shown (pidText pid) (·.uid = uid))
  unsupervised : Unsupervised (pidText pid) first last

theorem Unsupervised.widen {start first last stop : Moment Snapshot} (alone : Unsupervised name first last)
    (before : Later start first) (after : Later last stop) : Unsupervised name start stop := by
  rcases alone with gone | ⟨parent, middle, up, down, read, none'⟩
  · exact Or.inl (gone.widen before after)
  · exact Or.inr ⟨parent, middle, before.trans up, down.trans after, read.widen before (Later.refl _),
      none'.imp id (·.widen (Later.refl _) after)⟩

theorem isOurs_finds (uid : ℕ) (device : Discovery.Device) (holder : BackendOwner) :
    Finds (isOurs uid device holder) fun ours first last => ours = true → holder.oscmix = true
      ∧ holder.client = device.client ∧ holder.serial = some device.serial
      ∧ Seen first last (Shown (pidText holder.pid) (·.uid = uid)) := by
  refine (Finds.ite (fun _ => finds_pure _) fun _ => (findStaleBackends_finds uid).bind fun own =>
    finds_pure _).imp ?_
  rintro ours first last - (⟨-, rfl, -⟩ | ⟨fits, own, middle, -, -, owned, rfl, rfl⟩) yes
  · cases yes
  · obtain ⟨runs, client, serial⟩ : holder.oscmix = true ∧ holder.client = device.client
        ∧ holder.serial = some device.serial := by simpa using fits
    obtain ⟨number, member, same⟩ := List.any_eq_true.mp yes
    exact ⟨runs, client, serial, (by simpa using same : number = holder.pid) ▸ owned number member⟩

theorem stillStale_finds (uid pid : ℕ) (path : List Char) (device : Discovery.Device) :
    Finds (stillStale uid pid path device) fun stale first last =>
      stale = true → Rechecked uid pid path device first last := by
  unfold stillStale
  refine (Finds.andThen (fun holder stale first last => stale = true → ∃ found, holder.join = some found
    ∧ found.pid = pid ∧ found.oscmix = true ∧ found.client = device.client ∧ found.serial = some device.serial
    ∧ Seen first last (Shown (pidText pid) (·.uid = uid)) ∧ Unsupervised (pidText pid) first last)
    (controlHolder_finds path).attempt fun holder => ?_).imp ?_
  · cases holder.join with
    | none =>
        exact (finds_pure _).imp fun stale _ _ _ ⟨same, _⟩ yes => by
          rw [same] at yes
          cases yes
    | some holder =>
        refine (Finds.ite (fun _ => finds_pure _) fun _ => (isOurs_finds uid device holder).bind fun ours =>
          Finds.ite (fun _ => finds_pure _) fun _ => supervisingSession_finds.bind fun session => finds_pure _).imp ?_
        rintro stale first last - (⟨-, rfl, -⟩ | ⟨same, ours, second, a, b, known, rest⟩) yes
        · cases yes
        · rcases rest with ⟨-, rfl, -⟩ | ⟨mine, session, third, c, d, alone, rfl, rfl⟩
          · cases yes
          · obtain ⟨runs, client, serial, user⟩ := known (by simpa using mine)
            have number : holder.pid = pid := not_not.mp same
            rw [number] at user
            exact ⟨holder, rfl, number, runs, client, serial, user.widen (Later.refl _) b,
              (alone (Option.isNone_iff_eq_none.mp yes)).widen a (Later.refl _)⟩
  · rintro stale first last - ⟨holder, middle, before, after, read, rechecked⟩ yes
    obtain ⟨found, joined, rfl, runs, client, serial, user, alone⟩ := rechecked yes
    obtain rfl := Option.join_eq_some_iff.mp joined
    have coordinated := read _ rfl found rfl runs
    obtain ⟨inode, listed, links⟩ := coordinated.socket
    obtain ⟨number, known, shows⟩ := coordinated.serial _ serial
    exact {
      socket := ⟨inode, listed.widen (Later.refl _) after, links.widen (Later.refl _) after⟩
      command := coordinated.command.widen (Later.refl _) after
      executable := coordinated.executable.widen (Later.refl _) after
      bridge := ⟨number, client.symm.trans known, (coordinated.client number known).widen (Later.refl _) after,
        shows.widen (Later.refl _) after⟩
      user := user.widen before (Later.refl _)
      unsupervised := alone.widen before (Later.refl _) }

/-! ### The signal -/

/-- A signal that reached the process its pidfd was opened on, with what was found in between. -/
structure Sent (pid : ℕ) (found : Moment Snapshot → Moment Snapshot → Prop) (world : ℕ → Snapshot)
    (delivery : Delivery) : Prop where
  opens : ∃ p, (world delivery.opened).entry (pidText pid) = some p ∧ p.born = delivery.process
  reaches : ∃ p ∈ (world delivery.sent).processes, p.born = delivery.process
  checked : ∃ start stop, delivery.opened < start ∧ start ≤ stop ∧ stop ≤ delivery.sent
    ∧ found ⟨world, start⟩ ⟨world, stop⟩

theorem pidfdOpen_finds (number : ℕ) : Finds (pidfdOpen number) fun fd first last =>
    last = first.tick ∧ ∀ born, fd = .process born →
      ∃ p, (first.world first.now).entry (pidText number) = some p ∧ p.born = born := by
  refine (finds_look _).imp fun fd first last _ ⟨ticks, read⟩ => ⟨ticks, fun born same => ?_⟩
  subst same
  split_ifs at read
  · cases known : (first.world first.now).entry (pidText number) with
    | none =>
        rw [known] at read
        cases read
    | some p =>
        rw [known] at read
        exact ⟨p, rfl, Pidfd.process.inj (Except.ok.inj read)⟩
  · cases read

theorem pidfdSendSignal_finds (opened born : ℕ) : Finds (pidfdSendSignal opened born) fun result first _ =>
    ∀ delivery, result = .reached delivery → delivery = ⟨born, opened, first.now⟩
      ∧ ∃ p ∈ (first.world first.now).processes, p.born = born := by
  refine (finds_moment.bind fun sent => finds_look _).imp ?_
  rintro result first last - ⟨sent, middle, -, -, ⟨rfl, rfl⟩, -, read⟩ delivery rfl
  split_ifs at read with given lives
  · obtain ⟨p, listed, same⟩ := List.any_eq_true.mp lives
    exact ⟨(Signalled.reached.inj (Except.ok.inj read)).symm, p, listed, by simpa using same⟩
  · cases read
  · cases read

/-- The moment is one of the first one's world. -/
theorem later_eq {first last : Moment Snapshot} (later : Later first last) : last = ⟨first.world, last.now⟩ := by
  rw [← later.world]

/-- What a program that pins a process and then checks it has found, where it sends a signal. -/
theorem sent_of {pid born : ℕ} {found : Moment Snapshot → Moment Snapshot → Prop} {delivery : Delivery}
    {first opened checked sent : Moment Snapshot} (opens : opened = first.tick)
    (process : ∃ p, (first.world first.now).entry (pidText pid) = some p ∧ p.born = born)
    (before : Later opened checked) (between : Later checked sent) (holds : found checked sent)
    (reached : delivery = ⟨born, first.now, sent.now⟩)
    (lives : ∃ p ∈ (sent.world sent.now).processes, p.born = born) : Sent pid found first.world delivery := by
  subst opens reached
  have world : checked = ⟨first.world, checked.now⟩ := later_eq (first.later_tick.trans before)
  have world' : sent = ⟨first.world, sent.now⟩ := later_eq ((first.later_tick.trans before).trans between)
  rw [world'] at lives
  refine ⟨process, lives, checked.now, sent.now, before.now, between.now, le_refl _, ?_⟩
  rwa [← world, ← world']

/-- What a program finds that checks a pinned process, and sends to it. -/
def Sends (fd : Pidfd) (opened : ℕ) (found : Moment Snapshot → Moment Snapshot → Prop) (result : Option Delivery)
    (first : Moment Snapshot) : Prop :=
  ∀ delivery, result = some delivery → ∃ born checked, fd = .process born ∧ Later first checked
    ∧ found first checked ∧ delivery = ⟨born, opened, checked.now⟩
    ∧ ∃ p ∈ (checked.world checked.now).processes, p.born = born

/-- A program that ends without a signal. -/
theorem finds_unsent {β : Type} (found : Moment Snapshot → Delivery → Prop) (value : β) :
    Finds (pure (value, none) : Look (β × Option Delivery)) fun result first _ =>
      ∀ delivery, result.2 = some delivery → found first delivery :=
  (finds_pure _).imp fun _ _ _ _ ⟨same, _⟩ _ known => by
    rw [same] at known
    cases known

/-- And one that ends with it. -/
theorem finds_sent {β : Type} (value : β) (delivery : Delivery) :
    Finds (pure (value, some delivery) : Look (β × Option Delivery)) fun result _ _ =>
      ∀ other, result.2 = some other → Signalled.reached delivery = .reached other :=
  (finds_pure _).imp fun _ _ _ _ ⟨same, _⟩ _ known => by
    rw [same] at known
    exact congrArg _ (Option.some_inj.mp known)

theorem terminate_finds (pid : ℕ) {stillStale : Look Bool} {found : Moment Snapshot → Moment Snapshot → Prop}
    (checks : Finds stillStale fun stale first last => stale = true → found first last) :
    Finds (terminate pid stillStale) fun result first _ =>
      ∀ delivery, result.2 = some delivery → Sent pid found first.world delivery := by
  unfold terminate
  refine (finds_moment.bind fun opened => Finds.andThen
    (fun fd result first _ => Sends fd opened found result.2 first) (pidfdOpen_finds pid) fun fd => ?_).imp ?_
  · cases fd with
    | gone => exact finds_unsent _ _
    | refused => exact finds_unsent _ _
    | process born =>
        refine (checks.bind fun stale => Finds.ite (fun _ => finds_pure _) fun _ =>
          Finds.andThen (fun result (value : Bool × Option Delivery) _ _ =>
            ∀ delivery, value.2 = some delivery → result = .reached delivery)
            (pidfdSendSignal_finds opened born) fun result => ?_).imp ?_
        · cases result with
          | gone => exact finds_unsent _ _
          | refused => exact finds_unsent _ _
          | reached delivery => exact finds_sent _ _
        · rintro value first last - ⟨stale, checked, later, -, holds, rest⟩ delivery known
          rcases rest with ⟨-, rfl, -⟩ | ⟨yes, result, after, -, -, reached, same⟩
          · cases known
          · obtain ⟨rfl, lives⟩ := reached delivery (same delivery known)
            exact ⟨born, checked, rfl, later, holds (by simpa using yes), rfl, lives⟩
  · rintro value first last - ⟨opened, same, -, -, ⟨rfl, rfl⟩, fd, ticked, -, -, ⟨opens, process⟩, sends⟩
    intro delivery known
    obtain ⟨born, checked, rfl, later, holds, delivered, lives⟩ := sends delivery known
    exact sent_of opens (process born rfl) (Later.refl _) later holds delivered lives

/-- What the signal of a cleanup comes with. -/
def Cleaned (uid : ℕ) (path : List Char) (device : Discovery.Device) (first : Moment Snapshot)
    (delivery : Delivery) : Prop :=
  ∃ pid, Sent pid (Rechecked uid pid path device) first.world delivery

theorem Cleaned.before {uid : ℕ} {path : List Char} {device : Discovery.Device} {delivery : Delivery}
    {start first : Moment Snapshot} (cleaned : Cleaned uid path device first delivery) (later : Later start first) :
    Cleaned uid path device start delivery := by
  unfold Cleaned
  rw [← later.world]
  exact cleaned

theorem cleanupHolder_finds (uid : ℕ) (path : List Char) (device : Discovery.Device) (holder : BackendOwner) :
    Finds (cleanupHolder uid path device holder) fun result first _ => ∀ delivery, result.2 = some delivery →
      Cleaned uid path device first delivery := by
  unfold cleanupHolder
  refine ((isOurs_finds uid device holder).bind fun ours => Finds.ite
    (fun _ => finds_unsent (Cleaned uid path device) _) fun _ => Finds.andThen
      (fun _ (result : Option ℤ × Option Delivery) first _ =>
        ∀ delivery, result.2 = some delivery → Cleaned uid path device first delivery)
      supervisingSession_finds fun session => ?_).imp ?_
  · cases session with
    | some session => exact finds_unsent _ _
    | none =>
        refine ((terminate_finds holder.pid (stillStale_finds uid holder.pid path device)).bind
          fun result => finds_pure _).imp ?_
        rintro value first last - ⟨result, middle, -, -, sent, rfl, -⟩ delivery known
        exact ⟨holder.pid, sent delivery known⟩
  · rintro value first last - ⟨ours, second, a, -, -, rest⟩ delivery known
    rcases rest with ⟨-, unsent⟩ | ⟨-, session, third, b, -, -, sent⟩
    · exact (unsent delivery known).before a
    · exact (sent delivery known).before (a.trans b)

theorem cleanupStaleBackend_finds (uid : ℕ) (path : List Char) (device : Discovery.Device) :
    Finds (cleanupStaleBackend uid path device) fun result first _ => ∀ delivery, result.2 = some delivery →
      Cleaned uid path device first delivery := by
  unfold cleanupStaleBackend
  refine (Finds.andThen (fun _ result first _ => ∀ delivery, result.2 = some delivery →
    Cleaned uid path device first delivery) (finds_look _) fun endpoint => ?_).imp ?_
  · cases endpoint with
    | missing => exact finds_unsent _ _
    | refused => exact finds_throw _ _
    | other => exact finds_unsent _ _
    | socket =>
        refine (Finds.andThen (fun _ result first _ => ∀ delivery, result.2 = some delivery →
          Cleaned uid path device first delivery) (controlHolder_finds path).attempt fun holder => ?_).imp ?_
        · rcases holder with _ | _ | holder
          · exact finds_unsent _ _
          · exact finds_unsent _ _
          · exact cleanupHolder_finds uid path device holder
        · rintro value first last - ⟨holder, middle, a, -, -, sent⟩ delivery known
          exact (sent delivery known).before a
  · rintro value first last - ⟨endpoint, middle, a, -, -, sent⟩ delivery known
    exact (sent delivery known).before a

end OscmixDesk.Process
