/-
**'Re-established by the desk'.**

A journal's stamp is the time the writes were stored, not the time they were acknowledged. Writes that one
backend acknowledged, and that are stored after another one has started, count as writes since its start
(`restamped`). Where every operation stores its writes before another backend starts, and stamps grow from
event to event (`Prompt`), the state is what it says once everything is stored (`reestablished_sound`).
-/

import Mathlib.Tactic.Linarith
import OscmixDesk.Model.Playstate

namespace OscmixDesk

/-! ### Filing -/

/-- Everything the files hold. -/
def Files.entries (files : Files) : List Stamped :=
  files.items.flatMap fun file => file.journal.items

/-- A journal after some more entries. -/
def filed (journal : Journal) (items : List Stamped) : Journal :=
  items.foldl Keyed.put journal

theorem mem_filed {journal : Journal} {items : List Stamped} (distinct : (items.map Stamped.path).Nodup)
    {entry : Stamped} : entry ∈ (filed journal items).items ↔
      entry ∈ items ∨ entry ∈ journal.items ∧ entry.path ∉ items.map Stamped.path := by
  induction items generalizing journal with
  | nil => simp [filed]
  | cons first rest ih =>
      obtain ⟨fresh, distinct⟩ := List.nodup_cons.mp distinct
      rw [show filed journal (first :: rest) = filed (journal.put first) rest from rfl, ih distinct,
        Keyed.mem_put]
      simp only [List.mem_cons, List.map_cons, not_or]
      constructor
      · rintro (later | ⟨rfl | ⟨held, other⟩, apart⟩)
        · exact Or.inl (Or.inr later)
        · exact Or.inl (Or.inl rfl)
        · exact Or.inr ⟨held, other, apart⟩
      · rintro ((rfl | later) | ⟨held, other, apart⟩)
        · exact Or.inr ⟨Or.inl rfl, fresh⟩
        · exact Or.inl later
        · exact Or.inr ⟨Or.inr ⟨held, other⟩, apart⟩

/-- One user files some more entries. -/
def Files.file (files : Files) (user : ℕ) (items : List Stamped) : Files :=
  files.put ⟨user, filed (journalOf files user) items⟩

section Filing

variable {files : Files} {user : ℕ} {items : List Stamped} {entry : Stamped}

theorem mem_journalOf (held : entry ∈ (journalOf files user).items) : entry ∈ files.entries := by
  unfold journalOf at held
  cases found : files.get? user with
  | none =>
      rw [found] at held
      exact absurd held List.not_mem_nil
  | some file =>
      rw [found] at held
      have member := ((files.get?_eq_some user file).mp found).1
      exact List.mem_flatMap.mpr ⟨file, member, held⟩

/-- What is in the files was filed now, or was there before. -/
theorem of_mem_file (distinct : (items.map Stamped.path).Nodup) (held : entry ∈ (files.file user items).entries) :
    entry ∈ items ∨ entry ∈ files.entries := by
  obtain ⟨file, member, held⟩ := List.mem_flatMap.mp held
  rcases (Keyed.mem_put _ _ _).mp member with rfl | ⟨before, -⟩
  · rcases (mem_filed distinct).mp held with now | ⟨before, -⟩
    · exact Or.inl now
    · exact Or.inr (mem_journalOf before)
  · exact Or.inr (List.mem_flatMap.mpr ⟨file, before, held⟩)

theorem mem_file (distinct : (items.map Stamped.path).Nodup) (filing : entry ∈ items) :
    entry ∈ (files.file user items).entries :=
  List.mem_flatMap.mpr ⟨_, (Keyed.mem_put _ _ _).mpr (Or.inl rfl), (mem_filed distinct).mpr (Or.inl filing)⟩

/-- What is filed under other paths stays. -/
theorem stays_file (distinct : (items.map Stamped.path).Nodup) (held : entry ∈ files.entries)
    (other : entry.path ∉ items.map Stamped.path) : entry ∈ (files.file user items).entries := by
  obtain ⟨file, member, held⟩ := List.mem_flatMap.mp held
  by_cases own : file.user = user
  · have found : files.get? user = some file := (files.get?_eq_some user file).mpr ⟨member, own⟩
    refine List.mem_flatMap.mpr ⟨_, (Keyed.mem_put _ _ _).mpr (Or.inl rfl), ?_⟩
    refine (mem_filed distinct).mpr (Or.inr ⟨?_, other⟩)
    rw [journalOf, found]
    exact held
  · exact List.mem_flatMap.mpr ⟨file, (Keyed.mem_put _ _ _).mpr (Or.inr ⟨member, own⟩), held⟩

/-- The latest entry of its path. -/
structure Latest (files : Files) (entry : Stamped) : Prop where
  held : entry ∈ files.entries
  latest : ∀ other ∈ files.entries, other.path = entry.path → other = entry ∨ other.stamp < entry.stamp

/-- What is filed now is the latest, where everything under its path is older. -/
theorem latest_filed (distinct : (items.map Stamped.path).Nodup) (filing : entry ∈ items)
    (older : ∀ other ∈ files.entries, other.path = entry.path → other.stamp < entry.stamp) :
    Latest (files.file user items) entry := by
  refine ⟨mem_file distinct filing, fun other held same => ?_⟩
  rcases of_mem_file distinct held with now | before
  · exact Or.inl (List.inj_on_of_nodup_map distinct now filing same)
  · exact Or.inr (older other before same)

theorem Latest.stays (latest : Latest files entry) (distinct : (items.map Stamped.path).Nodup)
    (other : entry.path ∉ items.map Stamped.path) : Latest (files.file user items) entry := by
  refine ⟨stays_file distinct latest.held other, fun entry' held same => ?_⟩
  rcases of_mem_file distinct held with now | before
  · exact absurd (List.mem_map.mpr ⟨entry', now, same⟩) other
  · exact latest.latest entry' before same

/-- A reader of all files holds the latest entry. -/
theorem Latest.read (latest : Latest files entry) : (readJournals files).get? entry.path = some entry := by
  have same : ((files.items.mergeSort fun one other => toString one.user ≤ toString other.user).flatMap
      fun file => file.journal.items).Perm files.entries :=
    (List.mergeSort_perm _ _).flatMap_right _
  refine newest_of_latest (same.mem_iff.mpr latest.held) fun other read path => ?_
  exact latest.latest other (same.mem_iff.mp read) path

/-- Nothing is read under a path without entries. -/
theorem readJournals_none {path : Path} (absent : ∀ entry ∈ files.entries, entry.path ≠ path) :
    (readJournals files).get? path = none := by
  have same : ((files.items.mergeSort fun one other => toString one.user ≤ toString other.user).flatMap
      fun file => file.journal.items).Perm files.entries :=
    (List.mergeSort_perm _ _).flatMap_right _
  exact newest_none.mpr fun entry read => absent entry (same.mem_iff.mp read)

end Filing

/-! ### Stamps -/

theorem roundHalfEven_le (q : ℚ) : (roundHalfEven q : ℚ) ≤ q + 1 / 2 := by
  have below := Int.floor_le q
  unfold roundHalfEven
  split_ifs with less more even
  · linarith
  · push_cast
    linarith
  · linarith
  · push_cast
    linarith

theorem stampOf_le (seconds : ℚ) : (stampOf seconds : ℚ) ≤ seconds * 1000000 + 1 / 2 :=
  roundHalfEven_le _

/-- An older stamp names a time before. -/
theorem stampSeconds_le {stamp : ℤ} {time : ℚ} (older : stamp < stampOf time) : stampSeconds stamp ≤ time := by
  have bound := stampOf_le time
  have less : (stamp : ℚ) + 1 ≤ stampOf time := by exact_mod_cast older
  unfold stampSeconds
  rw [div_le_iff₀ (by norm_num)]
  linarith

namespace Interface

/-! ### Prompt histories -/

/-- A step at which stamps grow, and at which only writes that the newest backend acknowledged are stored. -/
structure Timely (i : Interface) (now : ℚ) (happening : Happening) : Prop where
  stamps : stampOf i.clock < stampOf now
  stores : happening = .store → ∀ holder ∈ i.holder, holder.written.items ≠ [] → holder.backend = i.backends

/-- A history whose steps are all timely. -/
def Prompt (i : Interface) : List (ℚ × Happening) → Prop
  | [] => True
  | (now, happening) :: rest =>
      i.Timely now happening ∧ ∀ next, i.step now happening = some next → next.Prompt rest

/-- Nothing waits to be stored. -/
def Stored (i : Interface) : Prop :=
  ∀ holder ∈ i.holder, holder.written.items = [] ∧ holder.reported.items = []

/-- The last write of a register that was acknowledged. -/
def lastAck (i : Interface) (path : Path) : Option Ack :=
  (i.acks.filter (·.path = path)).getLast?

/-- The last report of a register that was noted. -/
def lastSight (i : Interface) (path : Path) : Option Sight :=
  (i.sights.filter (·.path = path)).getLast?

/-- What 're-established' says: the running backend acknowledged every declared value last, and the last CC
Mix report since its start was that of the TotalMix App. -/
structure Reestablished (i : Interface) (declared : List Message) : Prop where
  running : i.running = true
  written : ∀ message ∈ declared, ∃ ack, i.lastAck message.path = some ack ∧ ack.backend = i.backends
    ∧ i.started < ack.time ∧ sameValue message ack.message = true
  mode : ∃ sight, i.lastSight ccMix = some sight ∧ i.started < sight.time
    ∧ sight.report.args.head? = some (.int 0)

/-! ### What the files say -/

/-- Nothing is pending under a path. -/
def Clean (i : Interface) (path : Path) : Prop :=
  ∀ holder ∈ i.holder, holder.written.get? path = none

/-- No report of a path is pending. -/
def Unseen (i : Interface) (path : Path) : Prop :=
  ∀ holder ∈ i.holder, holder.reported.get? path = none

/-- The journals hold the last write of a register. -/
inductive Journaled (i : Interface) (path : Path) : Prop
  | never (unwritten : i.lastAck path = none) (absent : ∀ entry ∈ i.journals.entries, entry.path ≠ path)
  | stored (ack : Ack) (entry : Stamped) (last : i.lastAck path = some ack) (latest : Latest i.journals entry)
      (same : entry.message = ack.message)
      (current : ack.backend = i.backends ∨ stampSeconds entry.stamp ≤ i.started)

/-- The records hold the last report of a register. -/
inductive Recorded (i : Interface) (path : Path) : Prop
  | never (unseen : i.lastSight path = none) (absent : ∀ entry ∈ i.records.entries, entry.path ≠ path)
  | stored (sight : Sight) (last : i.lastSight path = some sight)
      (latest : Latest i.records ⟨sight.report, stampOf sight.time⟩)

/-- What holds along a prompt history. -/
structure Faithful (i : Interface) : Prop where
  started : i.started ≤ i.clock
  journals : ∀ entry ∈ i.journals.entries, entry.stamp ≤ stampOf i.clock
  records : ∀ entry ∈ i.records.entries, entry.stamp ≤ stampOf i.clock
  holder : ∀ holder ∈ i.holder, holder.backend ≤ i.backends
  acks : ∀ ack ∈ i.acks, ack.backend ≤ i.backends ∧ (ack.backend = i.backends → i.started < ack.time)
  sights : ∀ sight ∈ i.sights, stampOf sight.time ≤ stampOf i.clock
    ∧ (i.started < sight.time ∨ stampSeconds (stampOf sight.time) ≤ i.started)
  written : ∀ holder ∈ i.holder, ∀ message ∈ holder.written.items,
    ∃ ack, i.lastAck message.path = some ack ∧ ack.message = message ∧ ack.backend = holder.backend
  reported : ∀ holder ∈ i.holder, ∀ sight ∈ holder.reported.items, i.lastSight sight.path = some sight
    ∧ ∀ entry ∈ i.records.entries, entry.path = sight.path → entry.stamp < stampOf sight.time
  journaled : ∀ path, i.Clean path → i.Journaled path
  recorded : ∀ path, i.Unseen path → i.Recorded path

variable {i next : Interface} {now : ℚ} {holder : Holder}

theorem lastAck_acknowledge (message : Message) (path : Path) :
    (i.acknowledge message holder now).lastAck path
      = if message.path = path then some ⟨message, holder.backend, now⟩ else i.lastAck path := by
  unfold lastAck acknowledge
  split_ifs with same <;> simp [List.filter_append, Ack.path, same]

/-- An interface that noted one more report. -/
def noting (report : Message) (holder : Holder) (now : ℚ) (i : Interface) : Interface :=
  { i with
    holder := some { holder with reported := holder.reported.put ⟨report, now⟩ }
    sights := i.sights ++ [⟨report, now⟩] }

theorem lastSight_noting (report : Message) (path : Path) :
    (i.noting report holder now).lastSight path
      = if report.path = path then some ⟨report, now⟩ else i.lastSight path := by
  unfold lastSight noting
  split_ifs with same <;> simp [List.filter_append, Sight.path, same]

/-- The last write of a register was acknowledged, and is one of it. -/
theorem mem_lastAck {path : Path} {ack : Ack} (last : i.lastAck path = some ack) :
    ack ∈ i.acks ∧ ack.path = path := by
  have member := List.mem_filter.mp (List.mem_of_getLast? last)
  exact ⟨member.1, of_decide_eq_true member.2⟩

/-- The last report of a register was noted, and is one of it. -/
theorem mem_lastSight {path : Path} {sight : Sight} (last : i.lastSight path = some sight) :
    sight ∈ i.sights ∧ sight.path = path := by
  have member := List.mem_filter.mp (List.mem_of_getLast? last)
  exact ⟨member.1, of_decide_eq_true member.2⟩

/-! ### Steps -/

/-- Everything is stamped before this time. -/
structure Before (i : Interface) (now : ℚ) : Prop where
  started : i.started < now
  journals : ∀ entry ∈ i.journals.entries, entry.stamp < stampOf now
  records : ∀ entry ∈ i.records.entries, entry.stamp < stampOf now
  sights : ∀ sight ∈ i.sights, stampOf sight.time < stampOf now

theorem Faithful.before (faithful : i.Faithful) (later : i.clock < now) (stamps : stampOf i.clock < stampOf now) :
    i.Before now where
  started := faithful.started.trans_lt later
  journals entry held := (faithful.journals entry held).trans_lt stamps
  records entry held := (faithful.records entry held).trans_lt stamps
  sights sight member := (faithful.sights sight member).1.trans_lt stamps

/-- Time goes on. -/
theorem Faithful.later (faithful : i.Faithful) (before : i.Before now) : Faithful { i with clock := now } where
  started := before.started.le
  journals entry held := (before.journals entry held).le
  records entry held := (before.records entry held).le
  holder := faithful.holder
  acks := faithful.acks
  sights sight member := ⟨(before.sights sight member).le, (faithful.sights sight member).2⟩
  written := faithful.written
  reported := faithful.reported
  journaled path clean := by
    cases faithful.journaled path clean with
    | never unwritten absent => exact .never unwritten absent
    | stored ack entry last latest same current => exact .stored ack entry last latest same current
  recorded path unseen := by
    cases faithful.recorded path unseen with
    | never unseen absent => exact .never unseen absent
    | stored sight last latest => exact .stored sight last latest

/-- A backend starts: everything that was acknowledged or seen is from before. -/
theorem Faithful.starts (faithful : i.Faithful) (before : i.Before now) :
    Faithful { i with backends := i.backends + 1, started := now, running := true, clock := now } where
  started := le_rfl
  journals entry held := (before.journals entry held).le
  records entry held := (before.records entry held).le
  holder holder member := (faithful.holder holder member).trans (Nat.le_succ _)
  acks ack member := by
    have earlier := (faithful.acks ack member).1
    refine ⟨earlier.trans (Nat.le_succ _), fun same => ?_⟩
    dsimp only at same
    omega
  sights sight member :=
    ⟨(before.sights sight member).le, Or.inr (stampSeconds_le (before.sights sight member))⟩
  written := faithful.written
  reported := faithful.reported
  journaled path clean := by
    cases faithful.journaled path clean with
    | never unwritten absent => exact .never unwritten absent
    | stored ack entry last latest same current =>
        exact .stored ack entry last latest same (Or.inr (stampSeconds_le (before.journals entry latest.held)))
  recorded path unseen := by
    cases faithful.recorded path unseen with
    | never unseen absent => exact .never unseen absent
    | stored sight last latest => exact .stored sight last latest

theorem Faithful.exits (faithful : i.Faithful) : Faithful { i with running := false } where
  started := faithful.started
  journals := faithful.journals
  records := faithful.records
  holder := faithful.holder
  acks := faithful.acks
  sights := faithful.sights
  written := faithful.written
  reported := faithful.reported
  journaled path clean := by
    cases faithful.journaled path clean with
    | never unwritten absent => exact .never unwritten absent
    | stored ack entry last latest same current => exact .stored ack entry last latest same current
  recorded path unseen := by
    cases faithful.recorded path unseen with
    | never unseen absent => exact .never unseen absent
    | stored sight last latest => exact .stored sight last latest

/-- An operation takes the lock, with nothing pending, or releases it so. -/
theorem Faithful.holds (faithful : i.Faithful) {held : Option Holder} (now' : i.Stored)
    (stored : Stored { i with holder := held }) (backend : ∀ holder ∈ held, holder.backend ≤ i.backends) :
    Faithful { i with holder := held } where
  started := faithful.started
  journals := faithful.journals
  records := faithful.records
  holder := backend
  acks := faithful.acks
  sights := faithful.sights
  written holder member message pending := by
    rw [(stored holder member).1] at pending
    exact absurd pending List.not_mem_nil
  reported holder member sight pending := by
    rw [(stored holder member).2] at pending
    exact absurd pending List.not_mem_nil
  journaled path _ := by
    have clean : i.Clean path := fun holder member => by
      rw [Keyed.get?, (now' holder member).1]
      rfl
    cases faithful.journaled path clean with
    | never unwritten absent => exact .never unwritten absent
    | stored ack entry last latest same current => exact .stored ack entry last latest same current
  recorded path _ := by
    have unseen : i.Unseen path := fun holder member => by
      rw [Keyed.get?, (now' holder member).2]
      rfl
    cases faithful.recorded path unseen with
    | never unseen absent => exact .never unseen absent
    | stored sight last latest => exact .stored sight last latest

/-- A write is acknowledged. -/
theorem Faithful.acknowledges (faithful : i.Faithful) (before : i.started < now) (holds : i.holder = some holder)
    (message : Message) : Faithful (i.acknowledge message holder now) where
  started := faithful.started
  journals := faithful.journals
  records := faithful.records
  holder holder' member := by
    obtain rfl := Option.some_inj.mp member
    exact faithful.holder holder holds
  acks ack member := by
    rcases List.mem_append.mp member with earlier | new
    · exact faithful.acks ack earlier
    · obtain rfl := List.mem_singleton.mp new
      exact ⟨faithful.holder holder holds, fun _ => before⟩
  sights := faithful.sights
  written holder' member message' pending := by
    obtain rfl := Option.some_inj.mp member
    rw [lastAck_acknowledge]
    rcases (Keyed.mem_put _ _ _).mp pending with rfl | ⟨earlier, other⟩
    · exact ⟨_, if_pos rfl, rfl, rfl⟩
    · rw [if_neg fun same => other same.symm]
      exact faithful.written holder holds message' earlier
  reported holder' member := by
    obtain rfl := Option.some_inj.mp member
    exact faithful.reported holder holds
  journaled path clean := by
    have clean := clean _ rfl
    dsimp only at clean
    rw [Keyed.get?_put] at clean
    split_ifs at clean with same
    have clean : i.Clean path := fun holder' member => by
      obtain rfl := Option.some_inj.mp (holds.symm.trans member)
      exact clean
    have last : lastAck (i.acknowledge message holder now) path = i.lastAck path := by
      rw [lastAck_acknowledge, if_neg (Ne.symm same)]
    cases faithful.journaled path clean with
    | never unwritten absent => exact .never (last.trans unwritten) absent
    | stored ack entry last' latest same current => exact .stored ack entry (last.trans last') latest same current
  recorded path unseen := by
    have none := unseen _ rfl
    have unseen : i.Unseen path := fun holder' member => by
      obtain rfl := Option.some_inj.mp (holds.symm.trans member)
      exact none
    cases faithful.recorded path unseen with
    | never unseen absent => exact .never unseen absent
    | stored sight last latest => exact .stored sight last latest

/-- A report is noted. -/
theorem Faithful.notes (faithful : i.Faithful) (time : i.clock = now) (started : i.started < now)
    (older : ∀ entry ∈ i.records.entries, entry.stamp < stampOf now) (holds : i.holder = some holder)
    (report : Message) : Faithful (i.noting report holder now) where
  started := faithful.started
  journals := faithful.journals
  records := faithful.records
  holder holder' member := by
    obtain rfl := Option.some_inj.mp member
    exact faithful.holder holder holds
  acks := faithful.acks
  sights sight member := by
    rcases List.mem_append.mp member with earlier | new
    · exact faithful.sights sight earlier
    · obtain rfl := List.mem_singleton.mp new
      exact ⟨time ▸ le_rfl, Or.inl started⟩
  written holder' member := by
    obtain rfl := Option.some_inj.mp member
    exact faithful.written holder holds
  reported holder' member sight pending := by
    obtain rfl := Option.some_inj.mp member
    rw [lastSight_noting]
    rcases (Keyed.mem_put _ _ _).mp pending with rfl | ⟨earlier, other⟩
    · exact ⟨if_pos rfl, fun entry held _ => older entry held⟩
    · rw [if_neg fun same => other same.symm]
      exact faithful.reported holder holds sight earlier
  journaled path clean := by
    have none := clean _ rfl
    have clean : i.Clean path := fun holder' member => by
      obtain rfl := Option.some_inj.mp (holds.symm.trans member)
      exact none
    cases faithful.journaled path clean with
    | never unwritten absent => exact .never unwritten absent
    | stored ack entry last latest same current => exact .stored ack entry last latest same current
  recorded path unseen := by
    have unseen := unseen _ rfl
    dsimp only at unseen
    rw [Keyed.get?_put] at unseen
    split_ifs at unseen with same
    have unseen : i.Unseen path := fun holder' member => by
      obtain rfl := Option.some_inj.mp (holds.symm.trans member)
      exact unseen
    have last : (i.noting report holder now).lastSight path = i.lastSight path := by
      have apart : report.path ≠ path := fun equal => same equal.symm
      rw [lastSight_noting, if_neg apart]
    cases faithful.recorded path unseen with
    | never unseen absent => exact .never (last.trans unseen) absent
    | stored sight last' latest => exact .stored sight (last.trans last') latest

/-- What an operation stores of its writes. -/
def writes (holder : Holder) (now : ℚ) : List Stamped :=
  holder.written.items.map fun message => ⟨message, stampOf now⟩

/-- What an operation stores of the reports it noted. -/
def reports (holder : Holder) : List Stamped :=
  holder.reported.items.map fun sight => ⟨sight.report, stampOf sight.time⟩

theorem writes_distinct : ((writes holder now).map Stamped.path).Nodup := by
  rw [writes, List.map_map]
  exact holder.written.distinct

theorem reports_distinct : ((reports holder).map Stamped.path).Nodup := by
  rw [reports, List.map_map]
  exact holder.reported.distinct

/-- What is stored is filed. -/
theorem store_files (stores : i.store holder now = some next) :
    next = { i with
      holder := some { holder with written := Keyed.empty, reported := Keyed.empty }
      journals := i.journals.file holder.user (writes holder now)
      records := i.records.file holder.user (reports holder) } := by
  obtain ⟨journal, recorded, rfl⟩ := Option.map_eq_some_iff.mp stores
  have journal_eq : journal = filed (journalOf i.journals holder.user) (writes holder now) := by
    unfold recordWritten at recorded
    dsimp only at recorded
    split_ifs at recorded with nothing
    · rw [writes, nothing]
      exact (Option.some_inj.mp recorded).symm
    · rw [filed, writes, List.foldl_map]
      exact (Option.some_inj.mp recorded).symm
  have record_eq : recordSeen (journalOf i.records holder.user) holder.reported.items
      = filed (journalOf i.records holder.user) (reports holder) := by
    rw [recordSeen, filed, reports, List.foldl_map]
  rw [journal_eq, record_eq]
  rfl

/-- What an operation stores was pending. -/
theorem Faithful.stores (faithful : i.Faithful) (time : i.clock = now)
    (olderWrites : ∀ entry ∈ i.journals.entries, entry.stamp < stampOf now)
    (holds : i.holder = some holder) (prompt : holder.written.items ≠ [] → holder.backend = i.backends)
    (stores : i.store holder now = some next) : next.Faithful := by
  rw [store_files stores]
  refine ⟨faithful.started, fun entry held => ?_, fun entry held => ?_, fun holder' member => ?_, faithful.acks,
    faithful.sights, fun holder' member message pending => ?_, fun holder' member sight pending => ?_,
    fun path _ => ?_, fun path _ => ?_⟩
  · rcases of_mem_file writes_distinct held with new | earlier
    · obtain ⟨message, -, rfl⟩ := List.mem_map.mp new
      exact time ▸ le_rfl
    · exact faithful.journals entry earlier
  · rcases of_mem_file reports_distinct held with new | earlier
    · obtain ⟨sight, pending, rfl⟩ := List.mem_map.mp new
      have last := (faithful.reported holder holds sight pending).1
      exact (faithful.sights sight (mem_lastSight last).1).1
    · exact faithful.records entry earlier
  · obtain rfl := Option.some_inj.mp member
    exact faithful.holder holder holds
  · obtain rfl := Option.some_inj.mp member
    exact absurd pending List.not_mem_nil
  · obtain rfl := Option.some_inj.mp member
    exact absurd pending List.not_mem_nil
  · cases found : holder.written.get? path with
    | some message =>
        obtain ⟨pending, rfl⟩ := (holder.written.get?_eq_some path message).mp found
        obtain ⟨ack, last, rfl, backend⟩ := faithful.written holder holds message pending
        have filing : ⟨ack.message, stampOf now⟩ ∈ writes holder now := List.mem_map_of_mem pending
        refine .stored ack ⟨ack.message, stampOf now⟩ last ?_ rfl (Or.inl ?_)
        · exact latest_filed writes_distinct filing fun other held _ => olderWrites other held
        · exact backend.trans (prompt (List.ne_nil_of_mem pending))
    | none =>
        have clean : i.Clean path := fun holder' member => by
          obtain rfl := Option.some_inj.mp (holds.symm.trans member)
          exact found
        have other : path ∉ (writes holder now).map Stamped.path := by
          rw [writes, List.map_map]
          exact (holder.written.get?_eq_none path).mp found
        cases faithful.journaled path clean with
        | never unwritten absent =>
            refine .never unwritten fun entry held same => ?_
            rcases of_mem_file writes_distinct held with new | earlier
            · exact other (same ▸ List.mem_map_of_mem new)
            · exact absent entry earlier same
        | stored ack entry last latest same current =>
            have path_eq : entry.path = path := by
              rw [Stamped.path, same]
              exact (mem_lastAck last).2
            exact .stored ack entry last (latest.stays writes_distinct (path_eq ▸ other)) same current
  · cases found : holder.reported.get? path with
    | some sight =>
        obtain ⟨pending, rfl⟩ := (holder.reported.get?_eq_some path sight).mp found
        obtain ⟨last, older⟩ := faithful.reported holder holds sight pending
        have filing : ⟨sight.report, stampOf sight.time⟩ ∈ reports holder :=
          List.mem_map.mpr ⟨sight, pending, rfl⟩
        exact .stored sight last (latest_filed reports_distinct filing older)
    | none =>
        have unseen : i.Unseen path := fun holder' member => by
          obtain rfl := Option.some_inj.mp (holds.symm.trans member)
          exact found
        have other : path ∉ (reports holder).map Stamped.path := by
          rw [reports, List.map_map]
          exact (holder.reported.get?_eq_none path).mp found
        cases faithful.recorded path unseen with
        | never unseen absent =>
            refine .never unseen fun entry held same => ?_
            rcases of_mem_file reports_distinct held with new | earlier
            · exact other (same ▸ List.mem_map_of_mem new)
            · exact absent entry earlier same
        | stored sight last latest =>
            have other : sight.path ∉ (reports holder).map Stamped.path := (mem_lastSight last).2 ▸ other
            exact .stored sight last (latest.stays reports_distinct other)

theorem Faithful.step {happening : Happening} (faithful : i.Faithful) (timely : i.Timely now happening)
    (steps : i.step now happening = some next) : next.Faithful := by
  unfold Interface.step at steps
  split_ifs at steps with later
  have before := faithful.before later timely.stamps
  have moved := faithful.later before
  obtain ⟨i', happens, rfl⟩ := Option.map_eq_some_iff.mp steps
  cases happening with
  | start =>
      rw [happen] at happens
      split_ifs at happens
      obtain rfl := Option.some_inj.mp happens
      exact faithful.starts before
  | exit =>
      rw [happen] at happens
      split_ifs at happens
      obtain rfl := Option.some_inj.mp happens
      exact moved.exits
  | take user =>
      rw [happen] at happens
      split_ifs at happens with free
      obtain rfl := Option.some_inj.mp happens
      refine moved.holds (fun holder member => ?_) (fun holder member => ?_) fun holder member => ?_
      · rw [Option.isNone_iff_eq_none.mp free.2] at member
        cases member
      · obtain rfl := Option.some_inj.mp member
        exact ⟨rfl, rfl⟩
      · obtain rfl := Option.some_inj.mp member
        exact le_rfl
  | acknowledge message =>
      obtain ⟨holder, holds, rfl⟩ := Option.map_eq_some_iff.mp happens
      exact moved.acknowledges before.started holds message
  | see report tagged =>
      obtain ⟨holder, holds, rfl⟩ := Option.map_eq_some_iff.mp happens
      unfold see
      split_ifs
      · exact moved.notes rfl before.started before.records holds report
      · exact moved
  | store =>
      obtain ⟨holder, holds, stores⟩ := Option.bind_eq_some_iff.mp happens
      have stored : Interface.store holder now { i with clock := now } = some { i' with clock := now } := by
        obtain ⟨journal, recorded, rfl⟩ := Option.map_eq_some_iff.mp stores
        exact Option.map_eq_some_iff.mpr ⟨journal, recorded, rfl⟩
      exact moved.stores rfl before.journals holds (timely.stores rfl holder holds) stored
  | release =>
      obtain ⟨holder, holds, released⟩ := Option.bind_eq_some_iff.mp happens
      split_ifs at released with clean
      obtain rfl := Option.some_inj.mp released
      refine moved.holds (fun holder' member => ?_) (fun _ member => by cases member) fun _ member => by cases member
      obtain rfl := Option.some_inj.mp (holds.symm.trans member)
      exact clean

theorem faithful_initial : Faithful {} where
  started := le_rfl
  journals := nofun
  records := nofun
  holder := nofun
  acks := nofun
  sights := nofun
  written := nofun
  reported := nofun
  journaled _ _ := .never rfl nofun
  recorded _ _ := .never rfl nofun

/-- A prompt history keeps the files faithful. -/
theorem Faithful.history {trace : List (ℚ × Happening)} (faithful : i.Faithful) (prompt : i.Prompt trace)
    (ran : i.history trace = some next) : next.Faithful := by
  induction trace generalizing i with
  | nil => exact Option.some_inj.mp ran ▸ faithful
  | cons moment rest ih =>
      obtain ⟨now, happening⟩ := moment
      obtain ⟨i', steps, ran⟩ := Option.bind_eq_some_iff.mp ran
      exact ih (faithful.step prompt.1 steps) (prompt.2 i' steps) ran

/-! ### What the state told -/

/-- What 're-established' was judged from. -/
theorem reestablished_judged {device : Device} {declared : List Message} {journal seen : Journal} {started : ℚ}
    {count : ℕ} {last : Option ℤ} {name : String}
    (told : judgePlayback device declared journal seen started = .reestablished count last name) :
    (∀ message ∈ declared, ∃ entry, journal.get? message.path = some entry ∧ since entry.stamp started = true
        ∧ sameValue message entry.message = true)
      ∧ ∃ mode, mixMode device seen started = some mode ∧ mode.1 = 0 := by
  unfold judgePlayback at told
  dsimp only at told
  cases mix : mixMode device seen started with
  | none =>
      rw [mix] at told
      dsimp only [Option.filter_none] at told
      split_ifs at told
  | some mode =>
      rw [mix] at told
      by_cases app : mode.1 = 0
      · rw [Option.filter_some, if_neg (by simp [app])] at told
        dsimp only at told
        split_ifs at told with nothing missing differs
        refine ⟨fun message member => ?_, mode, rfl, app⟩
        have present := List.filter_eq_nil_iff.mp (not_not.mp missing) message member
        have agrees := List.filter_eq_nil_iff.mp (not_not.mp differs) message member
        simp only [Bool.not_eq_true, Bool.not_eq_false'] at present agrees
        obtain ⟨entry, written, path⟩ := List.mem_map.mp (List.contains_iff_mem.mp present)
        obtain ⟨held, fresh⟩ := List.mem_filter.mp written
        have found : journal.get? message.path = some entry := (journal.get?_eq_some _ _).mpr ⟨held, path⟩
        rw [found] at agrees
        exact ⟨entry, found, (Bool.and_eq_true_iff.mp fresh).2, agrees⟩
      · rw [Option.filter_some, if_pos (by simp [app])] at told
        dsimp only [preset] at told
        split_ifs at told

/-- The mode is the one of the last report in the record. -/
theorem mixMode_zero {device : Device} {seen : Journal} {started : ℚ} {mode : ℕ × String}
    (found : mixMode device seen started = some mode) (app : mode.1 = 0) :
    ∃ report, seen.get? ccMix = some report ∧ since report.stamp started = true
      ∧ report.message.args.head? = some (.int 0) := by
  unfold mixMode at found
  obtain ⟨report, held, found⟩ := Option.bind_eq_some_iff.mp found
  obtain ⟨register, -, found⟩ := Option.bind_eq_some_iff.mp found
  split_ifs at found with stale
  refine ⟨report, held, by simpa using stale, ?_⟩
  split at found
  · next index _ first =>
      split_ifs at found with natural
      obtain ⟨name, -, rfl⟩ := Option.map_eq_some_iff.mp found
      rw [first]
      dsimp only at app
      rw [show index = 0 by omega]
  · cases found

/-- **'Re-established' is what it told.** After a prompt history, with everything stored, every declared
playback register was written last by the running backend, at its declared value, and the last report of CC
Mix since its start is that of the TotalMix App. -/
theorem reestablished_sound (config : Config) (trace : List (ℚ × Happening)) (i : Interface)
    (ran : Interface.history {} trace = some i) (prompt : Interface.Prompt {} trace) (stored : i.Stored)
    (count : ℕ) (last : Option ℤ) (name : String)
    (told : i.status config = .ok (.reestablished count last name)) :
    ∃ declared, declaredPlayback config = .ok declared ∧ i.Reestablished declared := by
  have faithful := faithful_initial.history prompt ran
  unfold status playbackState at told
  cases known : deviceForName config.deviceName with
  | none =>
      rw [known] at told
      cases told
  | some device =>
      rw [known] at told
      dsimp only at told
      split_ifs at told with other running
      · cases told
      · cases planned : declaredPlayback config with
        | error fault =>
            rw [planned] at told
            cases told
        | ok declared =>
            rw [planned] at told
            obtain ⟨writes, mode, mix, app⟩ := reestablished_judged (Except.ok.inj told)
            refine ⟨declared, rfl, running, fun message member => ?_, ?_⟩
            · obtain ⟨entry, read, fresh, agrees⟩ := writes message member
              have clean : i.Clean message.path := fun holder holds => by
                rw [Keyed.get?, (stored holder holds).1]
                rfl
              cases faithful.journaled message.path clean with
              | never unwritten absent =>
                  rw [readJournals_none absent] at read
                  cases read
              | stored ack held lastAck latest same current =>
                  have path : held.path = message.path := by
                    rw [Stamped.path, same]
                    exact (mem_lastAck lastAck).2
                  obtain rfl := Option.some_inj.mp (read.symm.trans (path ▸ latest.read))
                  have acked : ack.backend = i.backends := by
                    refine current.resolve_right fun old => ?_
                    exact absurd (of_decide_eq_true fresh) (not_lt.mpr old)
                  refine ⟨ack, lastAck, acked, (faithful.acks ack (mem_lastAck lastAck).1).2 acked, ?_⟩
                  rw [← same]
                  exact agrees
            · obtain ⟨report, read, fresh, head⟩ := mixMode_zero mix app
              have unseen : i.Unseen ccMix := fun holder holds => by
                rw [Keyed.get?, (stored holder holds).2]
                rfl
              cases faithful.recorded ccMix unseen with
              | never unseen absent =>
                  rw [readJournals_none absent] at read
                  cases read
              | stored sight lastSight latest =>
                  have held := latest.read
                  rw [show Stamped.path ⟨sight.report, stampOf sight.time⟩ = ccMix from (mem_lastSight lastSight).2]
                    at held
                  obtain rfl := Option.some_inj.mp (read.symm.trans held)
                  refine ⟨sight, lastSight, ?_, head⟩
                  refine (faithful.sights sight (mem_lastSight lastSight).1).2.resolve_right fun old => ?_
                  exact absurd (of_decide_eq_true fresh) (not_lt.mpr old)
      · dsimp only at told
        cases told

/-! ### Runs -/

instance (i : Interface) (now : ℚ) (happening : Happening) : Decidable (i.Timely now happening) :=
  decidable_of_iff (stampOf i.clock < stampOf now ∧ (happening = .store → i.holder.all fun holder =>
      holder.written.items = [] || holder.backend = i.backends)) <| by
    constructor
    · rintro ⟨stamps, stores⟩
      refine ⟨stamps, fun store holder member written => ?_⟩
      have known := stores store
      rw [show i.holder = some holder from member, Option.all_some, Bool.or_eq_true_iff] at known
      exact of_decide_eq_true (known.resolve_left (by simpa using written))
    · rintro ⟨stamps, stores⟩
      refine ⟨stamps, fun store => ?_⟩
      cases held : i.holder with
      | none => rfl
      | some holder =>
          have known := stores store holder held
          by_cases written : holder.written.items = [] <;> simp_all

instance decidablePrompt : (i : Interface) → (trace : List (ℚ × Happening)) → Decidable (i.Prompt trace)
  | _, [] => isTrue trivial
  | i, (now, happening) :: rest =>
      match steps : i.step now happening with
      | none => decidable_of_iff (i.Timely now happening) (by simp [Prompt, steps])
      | some next =>
          have := decidablePrompt next rest
          decidable_of_iff (i.Timely now happening ∧ next.Prompt rest) (by simp [Prompt, steps])

/-- A desk that feeds one pair of outputs from one pair of playback channels. -/
def routed : Config where
  routes := [{ name := "main", kind := .playback, source := .pair 1 2, output := .pair 1 2, sameWidth := rfl }]

/-- The writes of that desk are acknowledged, and the mode is reported, in one operation each; something may
happen before the first one stores. -/
def operations (between : List (ℚ × Happening)) : List (ℚ × Happening) :=
  [(1, .start), (2, .take 1000), (3, .acknowledge ⟨.link .playback 1, "i", [.int 1]⟩),
      (4, .acknowledge ⟨.mix 1 .playback 1, "fi", [.real 0, .int 0]⟩)]
    ++ between
    ++ [(7, .store), (8, .release), (9, .take 1000), (10, .see ⟨ccMix, "i", [.int 0]⟩ (by decide)),
      (11, .store), (12, .release)]

/-- Writes of a backend that has gone away count as written since the next one started. -/
theorem restamped :
    ¬ ∀ (config : Config) (trace : List (ℚ × Happening)) (i : Interface), Interface.history {} trace = some i →
      i.Stored → ∀ (count : ℕ) (last : Option ℤ) (name : String),
        i.status config = .ok (.reestablished count last name) →
          ∀ declared, declaredPlayback config = .ok declared → i.Reestablished declared := by
  intro sound
  have run : (Interface.history {} (operations [(5, .exit), (6, .start)])).any fun i =>
      i.holder.isNone ∧ i.status routed = .ok (.reestablished 2 (some 7000000) "TotalMix App")
        ∧ i.lastAck (.link .playback 1) = some ⟨⟨.link .playback 1, "i", [.int 1]⟩, 1, 3⟩ ∧ i.backends = 2 := by
    decide +kernel
  have planned : declaredPlayback routed = .ok [⟨.link .playback 1, "i", [.int 1]⟩,
      ⟨.mix 1 .playback 1, "fi", [.real 0, .int 0]⟩] := by decide +kernel
  obtain ⟨i, ran, facts⟩ := (Option.any_eq_true _ _).mp run
  obtain ⟨free, told, acked, backends⟩ := of_decide_eq_true facts
  have stored : i.Stored := fun holder member => by
    rw [Option.isNone_iff_eq_none.mp free] at member
    cases member
  obtain ⟨ack, last, current, -⟩ := (sound routed _ i ran stored _ _ _ told _ planned).written _ List.mem_cons_self
  obtain rfl := Option.some_inj.mp (acked.symm.trans last)
  rw [backends] at current
  cases current

/-- Stored before another backend starts, the same writes are what status says. -/
theorem reestablished_sound_routed : ∃ i, Interface.history {} (operations []) = some i
    ∧ ∃ declared, declaredPlayback routed = .ok declared ∧ declared ≠ [] ∧ i.Reestablished declared := by
  have run : (Interface.history {} (operations [])).any fun i =>
      i.holder.isNone ∧ i.status routed = .ok (.reestablished 2 (some 7000000) "TotalMix App") := by
    decide +kernel
  have prompt : Interface.Prompt {} (operations []) := by decide +kernel
  obtain ⟨i, ran, facts⟩ := (Option.any_eq_true _ _).mp run
  obtain ⟨free, told⟩ := of_decide_eq_true facts
  have stored : i.Stored := fun holder member => by
    rw [Option.isNone_iff_eq_none.mp free] at member
    cases member
  obtain ⟨declared, planned, sound⟩ := reestablished_sound routed _ i ran prompt stored _ _ _ told
  refine ⟨i, ran, declared, planned, ?_, sound⟩
  rintro rfl
  exact absurd planned (by decide +kernel)

end Interface

end OscmixDesk
