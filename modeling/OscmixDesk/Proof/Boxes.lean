/-
**One desk, one box.**

The sequencer clients and the cards are matched with the device's name apart from each other, each list by
its exact names if it has any. What a list leaves is a filter of it (`pick_named`), so a client that is
chosen alone is the best of its list. It is the best of the cards only where it is exact if a card is, and no
other card is left with it; two serials are what tells two cards apart (`Confusable`).
-/

import OscmixDesk.Model.Discovery
import Mathlib.Data.List.Induction
import Mathlib.Data.List.Nodup

namespace OscmixDesk.Discovery

open Patterns Text

variable {alnum : Char → Bool} {usbId deviceName serial : List Char}

/-! ### What a name leaves of a list -/

/-- How well a name is the device's: as its name, as a part of it, or not at all. -/
def grade (deviceName name : List Char) : ℕ :=
  if isExactly deviceName name then 2 else if contains deviceName name then 1 else 0

/-- The entries whose names are the device's, exactly if any are. -/
def best {α : Type} (nameOf : α → List Char) (deviceName : List Char) (entries : List α) : List α :=
  if entries.any fun entry => isExactly deviceName (nameOf entry) then
    entries.filter fun entry => isExactly deviceName (nameOf entry)
  else entries.filter fun entry => contains deviceName (nameOf entry)

/-- The entries at the indices of which something is so are those of which it is. -/
theorem pick_indices {α : Type} (accepts : List Char → Bool) (nameOf : α → List Char) (entries : List α) :
    pick entries (indices accepts (entries.map nameOf)) = entries.filter fun entry => accepts (nameOf entry) := by
  induction entries using List.reverseRecOn with
  | nil => rfl
  | append_singleton entries entry ih =>
      have before : (List.range entries.length).filter
          (fun i => ((entries ++ [entry]).map nameOf)[i]?.any accepts)
            = indices accepts (entries.map nameOf) := by
        unfold indices
        rw [List.length_map]
        refine List.filter_congr fun i member => ?_
        have inside : i < entries.length := List.mem_range.mp member
        rw [List.getElem?_map, List.getElem?_append_left inside, ← List.getElem?_map]
      have kept : pick (entries ++ [entry]) (indices accepts (entries.map nameOf))
          = pick entries (indices accepts (entries.map nameOf)) := by
        unfold pick
        refine List.filterMap_congr fun i member => ?_
        have inside : i < entries.length := by
          have there := (List.mem_filter.mp member).1
          rwa [List.length_map, List.mem_range] at there
        exact List.getElem?_append_left inside
      have last : ((entries ++ [entry]).map nameOf)[entries.length]?.any accepts = accepts (nameOf entry) := by
        simp
      rw [List.filter_append, ← ih, ← kept]
      unfold indices
      rw [List.length_map, List.length_append, List.length_singleton, List.range_succ, List.filter_append,
        before]
      unfold pick
      rw [List.filterMap_append]
      congr 1
      by_cases accepted : accepts (nameOf entry) = true
      · simp [accepted]
      · simp [accepted]

theorem indices_ne_nil (accepts : List Char → Bool) (names : List (List Char)) :
    indices accepts names ≠ [] ↔ names.any accepts = true := by
  have same := pick_indices accepts id names
  rw [List.map_id] at same
  constructor
  · intro some'
    obtain ⟨i, member⟩ := List.exists_mem_of_ne_nil _ some'
    obtain ⟨-, accepted⟩ := List.mem_filter.mp member
    obtain ⟨name, there, accepted⟩ := (Option.any_eq_true _ _).mp accepted
    exact List.any_eq_true.mpr ⟨name, List.mem_of_getElem? there, accepted⟩
  · intro any none
    rw [none] at same
    obtain ⟨name, member, accepted⟩ := List.any_eq_true.mp any
    have left : name ∈ names.filter fun name => accepts (id name) := List.mem_filter.mpr ⟨member, accepted⟩
    rw [← same] at left
    cases left

/-- What a name leaves of a list. -/
theorem pick_named {α : Type} (nameOf : α → List Char) (deviceName : List Char) (entries : List α) :
    pick entries (named (entries.map nameOf) deviceName) = best nameOf deviceName entries := by
  unfold named best
  have any : (entries.map nameOf).any (isExactly deviceName)
      = entries.any fun entry => isExactly deviceName (nameOf entry) := List.any_map
  by_cases exact' : indices (isExactly deviceName) (entries.map nameOf) ≠ []
  · rw [if_pos exact', if_pos (any ▸ (indices_ne_nil _ _).mp exact'), pick_indices]
  · rw [if_neg exact', if_neg fun some' => exact' ((indices_ne_nil _ _).mpr (any ▸ some')), pick_indices]

theorem contains_of_mem {α : Type} {nameOf : α → List Char} {entries : List α} {entry : α}
    (member : entry ∈ best nameOf deviceName entries) :
    entry ∈ entries ∧ (isExactly deviceName (nameOf entry) = true ∨ contains deviceName (nameOf entry) = true) := by
  unfold best at member
  split_ifs at member
  · exact ⟨(List.mem_filter.mp member).1, Or.inl (List.mem_filter.mp member).2⟩
  · exact ⟨(List.mem_filter.mp member).1, Or.inr (List.mem_filter.mp member).2⟩

/-- The entries that are the device's as well as a name is. -/
def atLeast {α : Type} (nameOf : α → List Char) (deviceName name : List Char) (entries : List α) : List α :=
  entries.filter fun entry => decide (grade deviceName name ≤ grade deviceName (nameOf entry))

/-- The best entries of a list are those that are the device's as well as one of them. -/
theorem best_eq_atLeast {α : Type} {nameOf : α → List Char} {entries : List α} {name : List Char}
    (matched : isExactly deviceName name = true ∨ contains deviceName name = true)
    (leads : isExactly deviceName name = false →
      (entries.any fun entry => isExactly deviceName (nameOf entry)) = false)
    (there : ∃ entry ∈ entries, nameOf entry = name) :
    best nameOf deviceName entries = atLeast nameOf deviceName name entries := by
  unfold best atLeast
  by_cases exact' : isExactly deviceName name = true
  · have any : (entries.any fun entry => isExactly deviceName (nameOf entry)) = true := by
      obtain ⟨entry, member, rfl⟩ := there
      exact List.any_eq_true.mpr ⟨entry, member, exact'⟩
    rw [if_pos any]
    refine List.filter_congr fun entry _ => ?_
    unfold grade
    rw [if_pos exact']
    by_cases other : isExactly deviceName (nameOf entry) = true
    · simp [other]
    · rw [if_neg other]
      split_ifs <;> simp [other]
  · have part := matched.resolve_left exact'
    have none := leads (Bool.not_eq_true _ ▸ exact')
    rw [if_neg (by rw [none]; exact Bool.false_ne_true)]
    refine List.filter_congr fun entry member => ?_
    have other : isExactly deviceName (nameOf entry) ≠ true := by
      have all := List.any_eq_false.mp none entry member
      exact all
    unfold grade
    rw [if_neg exact', if_pos part, if_neg other]
    by_cases inside : contains deviceName (nameOf entry) = true
    · simp [inside]
    · simp [inside]

/-- An entry is the only one of which something is so exactly where the list holds no other such. -/
theorem alone_iff {α : Type} {holds : α → Bool} {entries : List α} {entry : α} (member : entry ∈ entries)
    (here : holds entry = true) :
    (∃ before after, entries = before ++ entry :: after ∧ ∀ other ∈ before ++ after, holds other = false)
      ↔ (entries.filter holds).length < 2 := by
  constructor
  · rintro ⟨before, after, rfl, others⟩
    have left : before.filter holds = [] :=
      List.filter_eq_nil_iff.mpr fun other at' => by
        rw [others other (List.mem_append_left _ at')]
        exact Bool.false_ne_true
    have right : after.filter holds = [] :=
      List.filter_eq_nil_iff.mpr fun other at' => by
        rw [others other (List.mem_append_right _ at')]
        exact Bool.false_ne_true
    rw [List.filter_append, List.filter_cons_of_pos here, left, right]
    exact Nat.lt_succ_self 1
  · intro few
    obtain ⟨before, after, rfl⟩ := List.append_of_mem member
    refine ⟨before, after, rfl, fun other at' => ?_⟩
    rw [List.filter_append, List.filter_cons_of_pos here, List.length_append, List.length_cons] at few
    by_contra holds'
    have others : other ∈ before.filter holds ++ after.filter holds := by
      rw [← List.filter_append]
      exact List.mem_filter.mpr ⟨at', Bool.not_eq_false _ ▸ holds'⟩
    have some' := List.length_pos_of_mem others
    rw [List.length_append] at some'
    omega

/-- A list that is left with one entry holds no other that is the device's as well. -/
theorem grade_lt_of_best {α : Type} {nameOf : α → List Char} {entries : List α} {entry other : α}
    (left : best nameOf deviceName entries = [entry]) (member : other ∈ entries) (apart : other ≠ entry) :
    grade deviceName (nameOf other) < grade deviceName (nameOf entry) := by
  have there : entry ∈ best nameOf deviceName entries := by
    rw [left]
    exact List.mem_singleton_self entry
  have leads (part : isExactly deviceName (nameOf entry) = false) :
      (entries.any fun entry => isExactly deviceName (nameOf entry)) = false := by
    by_contra any
    unfold best at there
    rw [if_pos (Bool.not_eq_false _ ▸ any)] at there
    have exact' := (List.mem_filter.mp there).2
    rw [part] at exact'
    cases exact'
  obtain ⟨inside, matched⟩ := contains_of_mem there
  rw [best_eq_atLeast matched leads ⟨entry, inside, rfl⟩] at left
  by_contra as'
  have among : other ∈ atLeast nameOf deviceName (nameOf entry) entries :=
    List.mem_filter.mpr ⟨member, decide_eq_true (not_lt.mp as')⟩
  rw [left] at among
  exact apart (List.mem_singleton.mp among)

/-- A name of a list is the only one as good, unless an exact one is better or the list is left with another. -/
theorem alone_iff_best {names : List (List Char)} {name : List Char} (member : name ∈ names)
    (matched : isExactly deviceName name = true ∨ contains deviceName name = true) :
    (∃ before after, names = before ++ name :: after
        ∧ ∀ other ∈ before ++ after, grade deviceName other < grade deviceName name)
      ↔ ¬ ((isExactly deviceName name = false ∧ names.any (isExactly deviceName) = true)
        ∨ 1 < (best id deviceName names).length) := by
  by_cases better : isExactly deviceName name = false ∧ names.any (isExactly deviceName) = true
  · refine ⟨?_, fun clear => absurd (Or.inl better) clear⟩
    rintro ⟨before, after, rfl, others⟩
    obtain ⟨best', there, exact'⟩ := List.any_eq_true.mp better.2
    have less : grade deviceName best' < grade deviceName name := by
      rcases List.mem_append.mp there with left | right
      · exact others best' (List.mem_append_left _ left)
      · rcases List.mem_cons.mp right with rfl | right
        · rw [better.1] at exact'
          cases exact'
        · exact others best' (List.mem_append_right _ right)
    have low : grade deviceName name ≤ 1 := by
      unfold grade
      rw [if_neg (by rw [better.1]; exact Bool.false_ne_true)]
      split_ifs
      · exact le_refl 1
      · exact Nat.zero_le 1
    have high : grade deviceName best' = 2 := if_pos exact'
    omega
  · have leads (part : isExactly deviceName name = false) :
        (names.any fun name => isExactly deviceName (id name)) = false := by
      by_contra any
      exact better ⟨part, Bool.not_eq_false _ ▸ any⟩
    have same : (best id deviceName names).length
        = (names.filter fun other => decide (grade deviceName name ≤ grade deviceName other)).length := by
      rw [best_eq_atLeast matched leads ⟨name, member, rfl⟩]
      rfl
    have alone := @alone_iff _ (fun other => decide (grade deviceName name ≤ grade deviceName other)) names
      name member (decide_eq_true (le_refl _))
    simp only [decide_eq_false_iff_not, not_le] at alone
    rw [alone, same]
    refine ⟨fun few other => ?_, fun clear => ?_⟩
    · rcases other with exactly | more
      · exact better exactly
      · omega
    · by_contra more
      exact clear (Or.inr (by omega))

/-! ### Serials -/

/-- A serial is not empty. -/
theorem serialIn_ne_nil {name number : List Char} (known : serialIn name = some number) : number ≠ [] := by
  obtain ⟨groups, first, head⟩ := Option.bind_eq_some_iff.mp known
  obtain ⟨prior, here, -, found⟩ := mem_findall (List.mem_of_head? first)
  obtain ⟨found, matched, rfl⟩ := Option.map_eq_some_iff.mp found
  obtain ⟨c, rest, later, -, -, digits, rfl⟩ := matchHere_one rfl matched
  obtain ⟨size, last, least, most, -, rfl⟩ := matchHere_many rfl digits
  have same : rest.take size = number := by simpa [Match.after] using head
  rintro rfl
  have empty := congrArg List.length same
  rw [List.length_take, List.length_nil] at empty
  have bound := most.trans (List.takeWhile_prefix _).length_le
  omega

/-! ### A resolution -/

/-- The client that a resolution binds carries the serial it names, and the configured one; without one, no
other client and no other card is the device's as well. -/
structure OneBox (listed : List (ℕ × List Char)) (products : List (List Char)) (deviceName serial : List Char)
    (device : Device) : Prop where
  carries : ∀ client ∈ listed, device.client = some client.1 →
    (∀ own, serialIn client.2 = some own → device.serial = own)
      ∧ (serial ≠ [] → device.serial = serial ∧ serialIn client.2 = some serial)
  alone : serial = [] → ∀ client ∈ listed, device.client = some client.1 →
    (∀ other ∈ listed, other.1 ≠ client.1 → grade deviceName other.2 < grade deviceName client.2)
      ∧ ∃ before after, products = before ++ client.2 :: after
        ∧ ∀ other ∈ before ++ after, grade deviceName other < grade deviceName client.2

/-- Without a configured serial one client is left, the cards that are left do not show two serials, and
either a card has the device's name exactly and the client has not, or more than one card is left. -/
structure Confusable (listed : List (ℕ × List Char)) (products : List (List Char))
    (deviceName serial : List Char) : Prop where
  unset : serial = []
  cards : ∃ client, best Prod.snd deviceName listed = [client]
    ∧ ((isExactly deviceName client.2 = false ∧ (products.any (isExactly deviceName)) = true)
      ∨ 1 < (best id deviceName products).length)
  serials : (deviceSerials products deviceName).length ≤ 1

section Resolution

variable {clientsText cardsText : List Char} {listed : List (ℕ × List Char)}

/-- What `select_seq_client` returns where every client is named after a card. -/
theorem selectSeqClient_eq (read : kernelClients alnum clientsText = .ok listed)
    (carded : ∀ client ∈ listed, client.2 ∈ cardProducts cardsText) :
    selectSeqClient alnum clientsText deviceName serial (some (cardProducts cardsText))
      = let found := (best Prod.snd deviceName listed).filter fun client =>
          serial.isEmpty || serialIn client.2 == some serial
        if 1 < found.length then throw (.clients deviceName found) else return found.head?.map Prod.fst := by
  have all : (listed.filter fun client => (some (cardProducts cardsText)).all fun cards =>
      decide (client.2 ∈ cards)) = listed := by
    refine List.filter_eq_self.mpr fun client member => ?_
    simpa using carded client member
  unfold selectSeqClient
  simp only [read, bind, Except.bind, all, pick_named]

/-- The entry of a number, where no number is listed twice. -/
theorem lookup_listed (distinct : (listed.map Prod.fst).Nodup) {client : ℕ × List Char}
    (member : client ∈ listed) : listed.reverse.lookup client.1 = some client.2 := by
  have backwards : (listed.reverse.map Prod.fst).Nodup := by
    rw [List.map_reverse]
    exact List.nodup_reverse.mpr distinct
  have there : client ∈ listed.reverse := List.mem_reverse.mpr member
  generalize listed.reverse = backward at backwards there
  induction backward with
  | nil => cases there
  | cons first rest ih =>
      rw [List.map_cons, List.nodup_cons] at backwards
      rw [List.lookup_cons]
      rcases List.mem_cons.mp there with rfl | later
      · simp
      · have apart : client.1 ≠ first.1 := fun same =>
          backwards.1 (List.mem_map.mpr ⟨client, later, same⟩)
        simp only [beq_eq_false_iff_ne.mpr apart]
        exact ih backwards.2 later

/-- The serial of the client's own name, if it carries one, else of the one card there is. -/
theorem finalSerial (distinct : (listed.map Prod.fst).Nodup) {client : ℕ × List Char} (member : client ∈ listed)
    {cards : List (List Char)} (few : serial = [] → cards.length ≤ 1) :
    (if ((boundSerial listed serial (some client.1)).isEmpty && cards.length == 1) = true then
      cards.head?.getD [] else boundSerial listed serial (some client.1))
      = if serial = [] then (serialIn client.2).getD (cards.head?.getD []) else serial := by
  have bound : boundSerial listed serial (some client.1)
      = if serial.isEmpty = true then (serialIn client.2).getD [] else serial := by
    show (if serial.isEmpty = true then ((listed.reverse.lookup client.1).bind serialIn).getD []
      else serial) = _
    rw [lookup_listed distinct member]
    rfl
  rw [bound]
  by_cases unset : serial = []
  · have empty : serial.isEmpty = true := by simp [unset]
    rw [if_pos empty, if_pos unset]
    show (if (((serialIn client.2).getD []).isEmpty && cards.length == 1) = true then _
      else (serialIn client.2).getD []) = _
    cases known : serialIn client.2 with
    | none =>
        match cards, few unset with
        | [], _ => rfl
        | [_], _ => rfl
    | some own =>
        have some' : own.isEmpty = false := by simpa using serialIn_ne_nil known
        simp [some']
  · have some' : serial.isEmpty = false := by simpa using unset
    have stays : (if serial.isEmpty = true then (serialIn client.2).getD [] else serial) = serial :=
      if_neg (by simp [some'])
    rw [if_neg unset, stays]
    exact if_neg (by simp [some'])

/-- What a resolution is, where every client is named after a card. -/
theorem resolveDevice_eq_ok (read : kernelClients alnum clientsText = .ok listed)
    (distinct : (listed.map Prod.fst).Nodup)
    (carded : ∀ client ∈ listed, client.2 ∈ cardProducts cardsText) {device : Device}
    {client : ℕ × List Char} (member : client ∈ listed) :
    resolveDevice alnum usbId deviceName serial (some clientsText) (some cardsText) = .ok device
        ∧ device.client = some client.1
      ↔ ((best Prod.snd deviceName listed).filter fun client =>
            serial.isEmpty || serialIn client.2 == some serial) = [client]
        ∧ (serial = [] → (deviceSerials (cardProducts cardsText) deviceName).length ≤ 1)
        ∧ device = ⟨usbId, if serial = [] then (serialIn client.2).getD
            ((deviceSerials (cardProducts cardsText) deviceName).head?.getD []) else serial, some client.1⟩ := by
  have inside : ∀ found ∈ (best Prod.snd deviceName listed).filter fun client =>
      serial.isEmpty || serialIn client.2 == some serial, found ∈ listed := fun found there =>
    (contains_of_mem (List.mem_filter.mp there).1).1
  unfold resolveDevice
  dsimp only [Option.getD_some, Option.map_some]
  rw [selectSeqClient_eq read carded, read]
  dsimp only
  generalize (best Prod.snd deviceName listed).filter _ = found at inside
  generalize deviceSerials (cardProducts cardsText) deviceName = cards
  match found, inside with
  | [], _ =>
      refine ⟨fun resolved => ?_, fun resolved => by cases resolved.1⟩
      obtain ⟨resolved, bound⟩ := resolved
      by_cases many : (serial.isEmpty && decide (1 < cards.length)) = true
      · simp [bind, Except.bind, pure, Except.pure, many, throw, throwThe, MonadExceptOf.throw] at resolved
      · simp [bind, Except.bind, pure, Except.pure, many] at resolved
        rw [← resolved] at bound
        cases bound
  | first :: second :: rest, _ =>
      refine ⟨fun resolved => ?_, fun resolved => by cases resolved.1⟩
      simp [bind, Except.bind, throw, throwThe, MonadExceptOf.throw] at resolved
  | [first], inside =>
      have there : first ∈ listed := inside first (List.mem_singleton_self first)
      have only : first.1 = client.1 ↔ [first] = [client] := by
        rw [List.singleton_inj]
        refine ⟨fun same => ?_, fun same => by rw [same]⟩
        have name := lookup_listed distinct there
        rw [same, lookup_listed distinct member, Option.some_inj] at name
        exact Prod.ext same name.symm
      rw [if_neg (by simp)]
      show (if (serial.isEmpty && decide (1 < cards.length)) = true then throw _ else _) = _ ∧ _ ↔ _
      by_cases many : (serial.isEmpty && decide (1 < cards.length)) = true
      · rw [if_pos many]
        have some' : serial = [] ∧ 1 < cards.length := by simpa using many
        constructor
        · rintro ⟨resolved, -⟩
          cases resolved
        · rintro ⟨-, few, -⟩
          exact absurd (few some'.1) (not_le.mpr some'.2)
      · rw [if_neg many]
        have few (unset : serial = []) : cards.length ≤ 1 := by
          by_contra more
          exact many (by simp [unset, not_le.mp more])
        show (pure _ : Except DeviceAmbiguous Device) = _ ∧ _ ↔ _
        rw [← only]
        have serial' := @finalSerial serial listed distinct client member cards few
        constructor
        · rintro ⟨resolved, bound⟩
          obtain rfl := Except.ok.inj resolved
          have same : first.1 = client.1 := Option.some_inj.mp bound
          refine ⟨same, few, ?_⟩
          rw [← serial', ← same]
          rfl
        · rintro ⟨same, -, rfl⟩
          refine ⟨?_, rfl⟩
          rw [← serial', ← same]
          rfl

/-- **One desk, one box**, wherever every kernel client is named after a card: a client that is bound is the
box of the serial and the only candidate, unless a client is left alone while the cards show another
candidate without a serial of its own. -/
theorem oneBox (alnum : Char → Bool) (usbId deviceName serial clientsText cardsText : List Char)
    (listed : List (ℕ × List Char)) (read : kernelClients alnum clientsText = .ok listed)
    (distinct : (listed.map Prod.fst).Nodup)
    (carded : ∀ client ∈ listed, client.2 ∈ cardProducts cardsText) :
    (∀ device, resolveDevice alnum usbId deviceName serial (some clientsText) (some cardsText) = .ok device →
        OneBox listed (cardProducts cardsText) deviceName serial device)
      ↔ ¬ Confusable listed (cardProducts cardsText) deviceName serial := by
  have resolution (device : Device) (client : ℕ × List Char) (member : client ∈ listed) :=
    @resolveDevice_eq_ok alnum usbId deviceName serial clientsText cardsText listed read distinct carded device
      client member
  have configured {client : ℕ × List Char} (left : ((best Prod.snd deviceName listed).filter fun client =>
      serial.isEmpty || serialIn client.2 == some serial) = [client]) (set : serial ≠ []) :
      serialIn client.2 = some serial := by
    have kept := (List.mem_filter.mp (left ▸ List.mem_singleton_self client)).2
    simpa [set] using kept
  constructor
  · rintro holds ⟨rfl, ⟨client, left, other⟩, serials⟩
    have there : client ∈ best Prod.snd deviceName listed := by
      rw [left]
      exact List.mem_singleton_self client
    obtain ⟨member, matched⟩ := contains_of_mem there
    have kept : (best Prod.snd deviceName listed).filter (fun client =>
        ([] : List Char).isEmpty || serialIn client.2 == some []) = [client] := by
      rw [left]
      rfl
    obtain ⟨resolved, bound⟩ := (resolution _ client member).mpr ⟨kept, fun _ => serials, rfl⟩
    exact (alone_iff_best (carded client member) matched).mp
      ((holds _ resolved).alone rfl client member bound).2 other
  · intro clear device resolved
    refine ⟨fun client member bound => ?_, fun unset client member bound => ?_⟩
    · obtain ⟨left, few, rfl⟩ := (resolution device client member).mp ⟨resolved, bound⟩
      refine ⟨fun own known => ?_, fun set => ?_⟩
      · by_cases unset : serial = []
        · show (if serial = [] then _ else serial) = own
          rw [if_pos unset, known]
          rfl
        · show (if serial = [] then _ else serial) = own
          rw [if_neg unset]
          exact Option.some_inj.mp ((configured left unset).symm.trans known)
      · exact ⟨if_neg set, configured left set⟩
    · obtain ⟨left, few, -⟩ := (resolution device client member).mp ⟨resolved, bound⟩
      have kept : best Prod.snd deviceName listed = [client] := by
        rw [← left]
        exact (List.filter_eq_self.mpr fun other _ => by simp [unset]).symm
      have there : client ∈ best Prod.snd deviceName listed := by
        rw [kept]
        exact List.mem_singleton_self client
      refine ⟨fun other inside apart => grade_lt_of_best kept inside fun same => apart (by rw [same]),
        (alone_iff_best (carded client member) (contains_of_mem there).2).mpr fun other => ?_⟩
      exact clear ⟨unset, ⟨client, kept, other⟩, few unset⟩

end Resolution

/-! ### Two boxes of one name -/

/-- "Fireface 802". -/
def fireface802 : List Char :=
  ['F', 'i', 'r', 'e', 'f', 'a', 'c', 'e', ' ', '8', '0', '2']

/-- "Fireface 802 FS (3334)", beside "Fireface 802 (1112)". -/
def fireface802FS : List Char :=
  fireface802 ++ [' ', 'F', 'S', ' ', '(', '3', '3', '3', '4', ')']

/-- "Fireface 802 (1112)". -/
def fireface802Own : List Char :=
  fireface802 ++ [' ', '(', '1', '1', '1', '2', ')']

/-- A line of the client list. -/
def clientLine (number name : List Char) : List Char :=
  ['C', 'l', 'i', 'e', 'n', 't', ' ', ' '] ++ number ++ [' ', ':', ' ', '"'] ++ name
    ++ ['"', ' ', '[', 'K', 'e', 'r', 'n', 'e', 'l', ']', '\n']

/-- The lines of a card. -/
def cardLines (number product : List Char) : List Char :=
  [' '] ++ number
    ++ [' ', '[', 'R', 'M', 'E', ' ', ']', ':', ' ', 'U', 'S', 'B', '-', 'A', 'u', 'd', 'i', 'o', ' ', '-', ' ']
    ++ product ++ ['\n', ' ', ' ', 'R', 'M', 'E', ' '] ++ product ++ ['\n']

/-- The clients of both. -/
def bothClients : List Char :=
  clientLine ['2', '4'] fireface802Own ++ clientLine ['2', '8'] fireface802FS

/-- The cards of both. -/
def bothCards : List Char :=
  cardLines ['2'] fireface802Own ++ cardLines ['3'] fireface802FS

/-- With both there, the desk of the 802 is bound to the 802, by its name or by its serial. -/
theorem oneBox_both : ∃ device : Device, device.client = some 24 ∧ ∀ serial ∈ [[], ['1', '1', '1', '2']],
    resolveDevice (fun _ => false) [] fireface802 serial (some bothClients) (some bothCards) = .ok device
      ∧ OneBox [(24, fireface802Own), (28, fireface802FS)] (cardProducts bothCards) fireface802 serial device := by
  refine ⟨⟨[], ['1', '1', '1', '2'], some 24⟩, rfl, fun serial either => ?_⟩
  have resolved : resolveDevice (fun _ => false) [] fireface802 serial (some bothClients) (some bothCards)
      = .ok ⟨[], ['1', '1', '1', '2'], some 24⟩ := by
    revert serial
    decide +kernel
  have apart :
      ¬ Confusable [(24, fireface802Own), (28, fireface802FS)] (cardProducts bothCards) fireface802 serial := by
    rintro ⟨-, ⟨client, left, other⟩, -⟩
    have own : best Prod.snd fireface802 [(24, fireface802Own), (28, fireface802FS)] = [(24, fireface802Own)] := by
      decide +kernel
    obtain rfl : (24, fireface802Own) = client := (List.cons.inj (own.symm.trans left)).1
    exact absurd other (by decide +kernel)
  exact ⟨resolved, (oneBox (fun _ => false) [] fireface802 serial bothClients bothCards
    [(24, fireface802Own), (28, fireface802FS)] (by decide +kernel) (by decide) (by decide +kernel)).mpr apart _
      resolved⟩

/-- The desk of an 802 whose client is not up yet is bound to the 802 FS beside it. -/
theorem otherModel_bound : ¬ ∀ (alnum : Char → Bool) (usbId deviceName serial clientsText cardsText : List Char)
    (listed : List (ℕ × List Char)), kernelClients alnum clientsText = .ok listed →
      (listed.map Prod.fst).Nodup → (∀ client ∈ listed, client.2 ∈ cardProducts cardsText) →
      ∀ device, resolveDevice alnum usbId deviceName serial (some clientsText) (some cardsText) = .ok device →
        OneBox listed (cardProducts cardsText) deviceName serial device := by
  intro always
  have box := always (fun _ => false) [] fireface802 [] (clientLine ['2', '8'] fireface802FS)
    bothCards [(28, fireface802FS)] (by decide +kernel) (by decide) (by decide +kernel)
    ⟨[], ['3', '3', '3', '4'], some 28⟩ (by decide +kernel)
  have bound := (box.alone rfl _ (List.mem_singleton_self _) rfl).2
  exact (alone_iff_best (by decide +kernel) (Or.inr (by decide +kernel))).mp bound
    (Or.inl ⟨by decide +kernel, by decide +kernel⟩)

end OscmixDesk.Discovery
