/-
**Whose poll result it is.**

The walk tells a connection apart by its descriptor alone. Between `control_pollfds` and the walk
connections are closed and one is accepted, and nothing but that one is new (`walk_acted`). So a result is
acted on for another connection exactly where the new connection takes the slot of a closed one together
with its descriptor (`Reuses`).
-/

import OscmixDesk.Model.Poll
import OscmixDesk.Proof.Authority

namespace OscmixDesk.Backend

variable {outside : Outside} {others : List ℕ}

/-! ### Between two connections -/

/-- Since a moment slots have been closed and none opened. -/
def OnlyClosed (start s : Server) : Prop :=
  ∀ i, (s.clients i).fd = (start.clients i).fd ∨ (s.clients i).fd = none

theorem OnlyClosed.open {start s : Server} (closed : OnlyClosed start s) {i : Slot} {n : ℕ}
    (known : (s.clients i).fd = some n) : (start.clients i).fd = some n := by
  rcases closed i with same | lost
  · rw [← same, known]
  · rw [known] at lost
    cases lost

/-- Where the descriptors are as they were, nothing has been opened. -/
theorem OnlyClosed.kept {start s t : Server} (closed : OnlyClosed start s)
    (fd : ∀ i, (t.clients i).fd = (s.clients i).fd) : OnlyClosed start t := by
  intro i
  rw [fd i]
  exact closed i

theorem OnlyClosed.lost {start s : Server} (closed : OnlyClosed start s) (index : Slot) :
    OnlyClosed start (closeClient index s) := by
  intro i
  rw [closeClient_fd]
  split_ifs
  · exact Or.inr rfl
  · exact closed i

theorem modify_fd {index : Slot} {change : Client → Client} (s : Server)
    (same : (change (s.clients index)).fd = (s.clients index).fd) (i : Slot) :
    ((s.modify index change).clients i).fd = (s.clients i).fd := by
  by_cases here : i = index
  · subst here
    simpa [Server.modify] using same
  · simp [Server.modify, Function.update_of_ne here]

/-- Nothing but a new connection opens a slot. -/
theorem turns_onlyClosed (outside : Outside) (start : Server) : Turns outside (OnlyClosed start) where
  asks _ closed := closed
  took s index connection packet rest closed _ _ :=
    closed.kept (Drained.took index connection packet rest s).fd
  close _ index closed _ _ := closed.lost index
  lose _ index closed _ _ := closed.lost index
  event s index closed _ _ := closed.kept fun i => push_fd index i _ s
  told s index packet closed _ _ := closed.kept fun i => push_fd index i packet s
  counts _ closed := closed
  moves s _ _ closed same := closed.kept (modify_fd s (same _).1)
  ends _ closed := closed
  begins _ _ closed _ _ := closed
  opens _ _ closed := closed
  closes _ closed := closed
  window s index _ closed _ _ _ := closed.kept fun i => push_fd index i _ s
  greets s _ _ _ closed _ := closed.kept (modify_fd s rfl)
  grants s index _ closed _ := closed.kept fun i => push_fd index i _ s
  timeless _ _ _ closed := closed
  executes _ _ _ _ closed _ := closed

/-- A new connection takes the first free slot, and no other slot changes. -/
theorem acceptClient_fd {s : Server} {i : Slot} {n : ℕ}
    (known : ((acceptClient outside s).clients i).fd = some n) :
    (s.clients i).fd = some n
      ∨ outside.accepted s.asked = true
        ∧ (List.finRange 16).find? (fun i => (s.clients i).fd = none) = some i ∧ n = s.connections := by
  unfold acceptClient at known
  split_ifs at known with refused
  · exact Or.inl known
  · cases found : (List.finRange 16).find? fun i => decide ((s.clients i).fd = none) with
    | none =>
        rw [found] at known
        exact Or.inl known
    | some index =>
        rw [found] at known
        by_cases here : i = index
        · subst here
          refine Or.inr ⟨by simpa using refused, rfl, ?_⟩
          simpa [Server.modify, eq_comm] using known
        · exact Or.inl (by simpa [Server.modify, Function.update_of_ne here] using known)

theorem acceptClient_new {s : Server} {i : Slot} (accepted : outside.accepted s.asked = true)
    (free : (List.finRange 16).find? (fun i => (s.clients i).fd = none) = some i) :
    ((acceptClient outside s).clients i).fd = some s.connections := by
  unfold acceptClient
  rw [accepted, free]
  simp [Server.modify]

/-! ### The walk -/

section Walking

variable {holds : Server → Prop} {polled : Slot → Polled}

/-- What the events of one slot keep. -/
theorem serveRevents_keeps (turns : Turns outside holds) (index : Slot) (revents : Revents) {s : Server}
    (held : holds s) : holds (serveRevents outside index revents s) := by
  have flushed : holds (if revents.writable = true then flush outside (disconnect outside) index s
      else s) := by
    split_ifs
    · exact turns.act_keeps (.writable index) (fun same => by cases same) held
    · exact held
  unfold serveRevents
  dsimp only
  by_cases lost : revents.hangUp = true
  · rw [if_pos lost]
    exact turns.act_keeps (.hangUp index) (fun same => by cases same) held
  rw [if_neg lost]
  cases revents.readable with
  | none => exact flushed
  | some received => exact turns.act_keeps (.receive index received) (fun same => by cases same) flushed

/-- A slot is passed over, or served for the connection it has. -/
theorem visit_cases (walk : Walk) (index : Slot) :
    (visit outside polled walk index = walk
        ∧ ∀ n, (walk.host.server.clients index).fd = some n →
          (polled index).fd ≠ some (walk.host.number n))
      ∨ ∃ n, (walk.host.server.clients index).fd = some n
        ∧ (polled index).fd = some (walk.host.number n)
        ∧ visit outside polled walk index =
          { host := { walk.host with
              server := serveRevents outside index (polled index).revents walk.host.server }
            acted := if (polled index).revents.any then walk.acted ++ [(index, n)] else walk.acted } := by
  unfold visit
  cases known : (walk.host.server.clients index).fd with
  | none => exact Or.inl ⟨rfl, fun n same => by cases same⟩
  | some connection =>
      dsimp only
      by_cases other : (polled index).fd ≠ some (walk.host.number connection)
      · rw [if_pos other]
        refine Or.inl ⟨rfl, fun n same => ?_⟩
        obtain rfl := Option.some_inj.mp same
        exact other
      · rw [if_neg other]
        exact Or.inr ⟨connection, rfl, not_ne_iff.mp other, rfl⟩

/-- The walk over some slots. -/
def walkOver (outside : Outside) (polled : Slot → Polled) (walk : Walk) (slots : List Slot) : Walk :=
  slots.foldl (visit outside polled) walk

theorem walkOver_snoc (walk : Walk) (slots : List Slot) (index : Slot) :
    walkOver outside polled walk (slots ++ [index])
      = visit outside polled (walkOver outside polled walk slots) index :=
  List.foldl_append

/-- What the events of every slot keep, the walk keeps, and the descriptors stay as they are. -/
theorem walkOver_keeps (turns : Turns outside holds) (walk : Walk) (slots : List Slot)
    (held : holds walk.host.server) : holds (walkOver outside polled walk slots).host.server
      ∧ (walkOver outside polled walk slots).host.number = walk.host.number := by
  induction slots using List.reverseRecOn with
  | nil => exact ⟨held, rfl⟩
  | append_singleton slots index ih =>
      rw [walkOver_snoc]
      obtain ⟨same, -⟩ | ⟨n, -, -, served⟩ := @visit_cases outside polled
        (walkOver outside polled walk slots) index
      · rwa [same]
      · rw [served]
        exact ⟨serveRevents_keeps turns index _ ih.1, ih.2⟩

/-- A slot is acted on in its turn: the connection it has by then has the descriptor that was polled, and
an event was seen. -/
structure InTurn (outside : Outside) (polled : Slot → Polled) (walk : Walk) (before : List Slot)
    (entry : Slot × ℕ) : Prop where
  fd : ((walkOver outside polled walk before).host.server.clients entry.1).fd = some entry.2
  same : (polled entry.1).fd = some (walk.host.number entry.2)
  seen : (polled entry.1).revents.any = true

/-- Exactly what is acted on in its turn is acted on. -/
theorem walk_acted (walk : Walk) (fresh : walk.acted = []) (slots : List Slot) (entry : Slot × ℕ) :
    entry ∈ (walkOver outside polled walk slots).acted
      ↔ ∃ before after, slots = before ++ entry.1 :: after ∧ InTurn outside polled walk before entry := by
  induction slots using List.reverseRecOn with
  | nil => simp [walkOver, fresh]
  | append_singleton slots index ih =>
      have number := (@walkOver_keeps outside _ polled (turns_onlyClosed outside walk.host.server) walk
        slots fun _ => Or.inl rfl).2
      have split : (∃ before after, slots ++ [index] = before ++ entry.1 :: after
            ∧ InTurn outside polled walk before entry)
          ↔ (∃ before after, slots = before ++ entry.1 :: after ∧ InTurn outside polled walk before entry)
            ∨ entry.1 = index ∧ InTurn outside polled walk slots entry := by
        constructor
        · rintro ⟨before, after, same, turn⟩
          rcases List.eq_nil_or_concat after with rfl | ⟨after, last, rfl⟩
          · obtain ⟨rfl, here⟩ := List.append_inj' same rfl
            exact Or.inr ⟨(List.singleton_inj.mp here).symm, turn⟩
          · rw [List.concat_eq_append, ← List.cons_append, ← List.append_assoc] at same
            exact Or.inl ⟨before, after, (List.append_inj' same rfl).1, turn⟩
        · rintro (⟨before, after, rfl, turn⟩ | ⟨rfl, turn⟩)
          · exact ⟨before, after ++ [index], by simp, turn⟩
          · exact ⟨slots, [], rfl, turn⟩
      rw [split, ← ih, walkOver_snoc]
      obtain ⟨same, other⟩ | ⟨n, known, polledSame, served⟩ := @visit_cases outside polled
        (walkOver outside polled walk slots) index
      · rw [same]
        refine ⟨Or.inl, fun acted => acted.elim id ?_⟩
        rintro ⟨rfl, turn⟩
        exact absurd (number ▸ turn.same) (other _ turn.fd)
      · rw [served]
        dsimp only
        by_cases seen : (polled index).revents.any = true
        · rw [if_pos seen, List.mem_append, List.mem_singleton]
          refine or_congr Iff.rfl ⟨?_, ?_⟩
          · rintro rfl
            exact ⟨rfl, known, number ▸ polledSame, seen⟩
          · rintro ⟨rfl, turn⟩
            rw [turn.fd, Option.some_inj] at known
            rw [← known]
        · rw [if_neg seen]
          refine ⟨Or.inl, fun acted => acted.elim id ?_⟩
          rintro ⟨rfl, turn⟩
          exact absurd turn.seen seen

end Walking

/-! ### A round -/

namespace Host

/-- The host as a new connection is accepted: the reports and the clock have passed. -/
def called (outside : Outside) (round : Round) (host : Host) : Host :=
  controlTick outside (deliver outside round.midi host)

/-- What `poll` reports is acted on for the connections that were polled, and for no other. -/
def ActsOnPolled (outside : Outside) (others : List ℕ) (round : Round) (host : Host) : Prop :=
  ∀ entry ∈ (host.walk outside others round (List.finRange 16)).acted,
    (host.server.clients entry.1).fd = some entry.2

/-- A connection is accepted into a slot that was polled with a connection and has been closed since; the
lowest free descriptor is the closed one's, `poll` saw something of it, and the new connection is still
open in the slot's turn. -/
def Reuses (outside : Outside) (others : List ℕ) (round : Round) (host : Host) : Prop :=
  round.incoming = true ∧ outside.accepted (host.called outside round).server.asked = true ∧
    ∃ index polled, (List.finRange 16).find?
        (fun i => ((host.called outside round).server.clients i).fd = none) = some index
      ∧ (host.server.clients index).fd = some polled
      ∧ lowestFree ((host.called outside round).used others) = host.number polled
      ∧ (round.revents index).any = true
      ∧ ((host.walk outside others round ((List.finRange 16).take index)).host.server.clients
          index).fd ≠ none

end Host

section Rounds

variable {round : Round} {host : Host}

theorem called_keeps {holds : Server → Prop} (turns : Turns outside holds) (held : holds host.server) :
    holds (host.called outside round).server :=
  turns.serves.controlTick_keeps (turns.toTalks.deliver_keeps round.midi held)

theorem called_onlyClosed : OnlyClosed host.server (host.called outside round).server :=
  called_keeps (turns_onlyClosed outside host.server) fun _ => Or.inl rfl

/-- What the server keeps whatever it does, a round keeps. -/
theorem round_keeps {holds : Server → Prop} (always : Always outside holds) (held : holds host.server) :
    holds (host.round outside others round).server := by
  have called : holds ((Host.controlTick outside host).called outside round).server :=
    called_keeps always.turns (always.serves.controlTick_keeps held)
  have entered : holds (Host.entered outside others round (Host.controlTick outside host)).server := by
    unfold Host.entered
    dsimp only
    split_ifs
    · exact always.accepts _ called
    · exact called
  exact always.toTalks.deliver_keeps round.timer (walkOver_keeps always.turns ⟨_, []⟩ _ entered).1

theorem polling_sound (rounds : List Round) : Sound (Host.polling outside others rounds).server := by
  have always := always_follows outside {}
  have rounded : Follows {} (rounds.foldl (fun host round => Host.round outside others round host) {}).server :=
    List.foldlRecOn rounds (fun host round => Host.round outside others round host)
      (motive := fun host => Follows {} host.server) ⟨sound_start, Grew.refl _⟩
      fun _ held _ _ => round_keeps always held
  exact (always.serves.controlTick_keeps rounded).1

/-- A connection of the walk was there before, or it is the new one in the slot it takes. -/
theorem entered_fd {i : Slot} {n : ℕ} (known : ((host.entered outside others round).server.clients i).fd = some n) :
    ((host.called outside round).server.clients i).fd = some n
      ∨ round.incoming = true ∧ outside.accepted (host.called outside round).server.asked = true
        ∧ (List.finRange 16).find? (fun i => ((host.called outside round).server.clients i).fd = none) = some i
        ∧ n = (host.called outside round).server.connections := by
  unfold Host.entered at known
  dsimp only at known
  split_ifs at known with incoming
  · rcases acceptClient_fd known with before | ⟨accepted, free, new⟩
    · exact Or.inl before
    · exact Or.inr ⟨incoming, accepted, free, new⟩
  · exact Or.inl known

/-- The descriptors are as they were at the poll, that of the new connection apart. -/
theorem entered_number {n : ℕ} (old : n ≠ (host.called outside round).server.connections) :
    (host.entered outside others round).number n = host.number n := by
  unfold Host.entered
  dsimp only
  split_ifs
  · exact Function.update_of_ne old _ _
  · rfl

theorem entered_new (incoming : round.incoming = true) : (host.entered outside others round).number
    (host.called outside round).server.connections = lowestFree ((host.called outside round).used others) := by
  unfold Host.entered
  dsimp only
  rw [if_pos incoming]
  exact Function.update_self _ _ _

theorem controlPollfds_fd {i : Slot} {number : ℕ}
    (known : (host.controlPollfds round.revents i).fd = some number) :
    ∃ n, (host.server.clients i).fd = some n ∧ host.number n = number :=
  Option.map_eq_some_iff.mp known

/-- A connection that was polled is an old one. -/
theorem polled_old (sound : Sound host.server) {i : Slot} {n : ℕ} (known : (host.server.clients i).fd = some n) :
    n ≠ (host.called outside round).server.connections := by
  have grew : Grew host.server (host.called outside round).server :=
    (called_keeps (always_follows outside host.server).turns ⟨sound, Grew.refl _⟩).2
  exact (lt_of_lt_of_le (sound.fresh i n known) grew.connections).ne

/-- Where a slot stands in the walk, the slots before it are the lower ones. -/
theorem finRange_split {before after : List Slot} {i : Slot}
    (same : List.finRange 16 = before ++ i :: after) : before = (List.finRange 16).take i := by
  have place : (List.finRange 16)[before.length]? = some i := by
    rw [same]
    simp
  have here : before.length = i := by
    obtain ⟨small, known⟩ := List.getElem?_eq_some_iff.mp place
    rw [List.getElem_finRange] at known
    simpa using congrArg Fin.val known
  rw [← here, same, List.take_left]

theorem finRange_turn (i : Slot) : List.finRange 16
    = (List.finRange 16).take i ++ i :: (List.finRange 16).drop (i + 1) := by
  have small : (i : ℕ) < (List.finRange 16).length := by simp
  conv_lhs => rw [← List.take_append_drop i (List.finRange 16)]
  rw [List.drop_eq_getElem_cons small, List.getElem_finRange]
  rfl

/-- No slot is opened in the walk. -/
theorem walk_onlyClosed (slots : List Slot) :
    OnlyClosed (host.entered outside others round).server
      (host.walk outside others round slots).host.server :=
  (walkOver_keeps (turns_onlyClosed outside (host.entered outside others round).server)
    ⟨host.entered outside others round, []⟩ slots fun _ => Or.inl rfl).1

theorem walk_number (slots : List Slot) : (host.walk outside others round slots).host.number
    = (host.entered outside others round).number :=
  (walkOver_keeps (turns_onlyClosed outside (host.entered outside others round).server)
    ⟨host.entered outside others round, []⟩ slots fun _ => Or.inl rfl).2

/-- In a slot's turn every connection but the new one was polled there. -/
theorem turn_polled {before : List Slot} {entry : Slot × ℕ}
    (turn : InTurn outside (host.controlPollfds round.revents) ⟨host.entered outside others round, []⟩
      before entry)
    (other : (host.server.clients entry.1).fd ≠ some entry.2) :
    round.incoming = true ∧ outside.accepted (host.called outside round).server.asked = true
      ∧ (List.finRange 16).find? (fun i => ((host.called outside round).server.clients i).fd = none)
        = some entry.1
      ∧ entry.2 = (host.called outside round).server.connections := by
  rcases entered_fd ((walk_onlyClosed before).open turn.fd) with before' | new
  · exact absurd (called_onlyClosed.open before') other
  · exact new

/-- Whatever the rounds before, a round acts on the polled connections alone if and only if the new
connection does not take the slot and the descriptor of one that was closed after the poll saw
something of it. -/
theorem actsOnPolled (outside : Outside) (others : List ℕ) (rounds : List Round) (round : Round) :
    (Host.polling outside others rounds).ActsOnPolled outside others round
      ↔ ¬ (Host.polling outside others rounds).Reuses outside others round := by
  have sound := @polling_sound outside others rounds
  generalize Host.polling outside others rounds = host at sound
  have acted := @walk_acted outside (host.controlPollfds round.revents)
    ⟨host.entered outside others round, []⟩ rfl (List.finRange 16)
  constructor
  · rintro loyal ⟨incoming, accepted, index, polled, free, known, reused, seen, opened⟩
    obtain ⟨n, still⟩ := Option.ne_none_iff_exists'.mp opened
    have new : n = (host.called outside round).server.connections := by
      have taken : ((host.entered outside others round).server.clients index).fd
          = some (host.called outside round).server.connections := by
        unfold Host.entered
        dsimp only
        rw [if_pos incoming]
        exact acceptClient_new accepted free
      exact Option.some_inj.mp (((walk_onlyClosed _).open still).symm.trans taken)
    have member : (index, n) ∈ (host.walk outside others round (List.finRange 16)).acted := by
      refine (acted (index, n)).mpr ⟨_, _, finRange_turn index, still, ?_, seen⟩
      show (host.server.clients index).fd.map host.number
        = some ((host.entered outside others round).number n)
      rw [known, new, entered_new incoming, reused]
      rfl
    have same : polled = n := Option.some_inj.mp (known.symm.trans (loyal _ member))
    exact polled_old sound known (same.trans new)
  · intro apart entry member
    by_contra other
    obtain ⟨before, after, split, turn⟩ := (acted entry).mp member
    obtain ⟨incoming, accepted, free, new⟩ := turn_polled turn other
    obtain ⟨polled, known, number⟩ := controlPollfds_fd turn.same
    refine apart ⟨incoming, accepted, entry.1, polled, free, known, ?_, turn.seen, ?_⟩
    · rw [number, new]
      exact (entered_new incoming).symm
    · have open' := turn.fd
      rw [finRange_split split] at open'
      exact Option.ne_none_iff_exists'.mpr ⟨_, open'⟩

/-! ### The connections' own numbers -/

/-- Without an event nothing is done. -/
theorem serveRevents_unseen {revents : Revents} (unseen : revents.any = false) (index : Slot) (s : Server) :
    serveRevents outside index revents s = s := by
  obtain ⟨⟨lost, writable⟩, readable⟩ : (revents.hangUp = false ∧ revents.writable = false)
      ∧ revents.readable = none := by
    simpa [Revents.any] using unseen
  unfold serveRevents
  rw [lost, writable, readable]
  rfl

theorem serveSlot_eq (index : Slot) (polled : Polled) (s : Server) : serveSlot outside index polled s
    = if (s.clients index).fd = none ∨ (s.clients index).fd ≠ polled.fd then s
      else serveRevents outside index polled.revents s := rfl

/-- Where descriptors mislead nobody, a round is one that compares the connections themselves. -/
theorem walk_controlDispatch (rounds : List Round) (round : Round)
    (apart : ¬ (Host.polling outside others rounds).Reuses outside others round) :
    ((Host.polling outside others rounds).walk outside others round (List.finRange 16)).host.server
      = controlDispatch outside round.incoming
        (fun i => { (Host.polling outside others rounds).controlPollfds round.revents i with
          fd := ((Host.polling outside others rounds).server.clients i).fd })
        (deliver outside round.midi (Host.polling outside others rounds).server) := by
  have sound := @polling_sound outside others rounds
  have loyal := (actsOnPolled outside others rounds round).mpr apart
  generalize Host.polling outside others rounds = host at sound loyal
  have start : (host.entered outside others round).server
      = if round.incoming = true then
          acceptClient outside (controlTick outside (deliver outside round.midi host.server))
        else controlTick outside (deliver outside round.midi host.server) := by
    unfold Host.entered
    dsimp only
    split_ifs
    · rfl
    · rfl
  unfold controlDispatch
  dsimp only
  rw [← start]
  have step (before after : List Slot) (split : List.finRange 16 = before ++ after) :
      (host.walk outside others round before).host.server
        = before.foldl (fun s i => serveSlot outside i { host.controlPollfds round.revents i with
            fd := (host.server.clients i).fd } s) (host.entered outside others round).server := by
    induction before using List.reverseRecOn generalizing after with
    | nil => rfl
    | append_singleton before index ih =>
        rw [List.append_assoc, List.singleton_append] at split
        rw [List.foldl_append, ← ih (index :: after) split, List.foldl_cons, List.foldl_nil]
        have number (n : ℕ) (known : (host.server.clients index).fd = some n) :
            (host.controlPollfds round.revents index).fd
              = some ((host.walk outside others round before).host.number n) := by
          rw [walk_number, entered_number (polled_old sound known)]
          exact congrArg (Option.map host.number) known
        rw [show host.walk outside others round (before ++ [index]) = visit outside
          (host.controlPollfds round.revents) (host.walk outside others round before) index from
            walkOver_snoc _ _ _]
        rcases @visit_cases outside (host.controlPollfds round.revents)
          (host.walk outside others round before) index with ⟨same, other⟩ | ⟨n, known, polled, served⟩
        · rw [same]
          refine (if_pos ?_).symm
          cases fd : ((host.walk outside others round before).host.server.clients index).fd with
          | none => exact Or.inl rfl
          | some n => exact Or.inr fun same => other n fd (number n same.symm)
        · rw [served]
          by_cases seen : (host.controlPollfds round.revents index).revents.any = true
          · have turn : InTurn outside (host.controlPollfds round.revents)
                ⟨host.entered outside others round, []⟩ before (index, n) := by
              refine ⟨known, ?_, seen⟩
              rw [polled, walk_number]
            have here : (host.server.clients index).fd = some n :=
              loyal _ ((walk_acted _ rfl _ _).mpr ⟨before, after, split, turn⟩)
            refine (if_neg ?_).symm
            rintro (none | other)
            · rw [known] at none
              cases none
            · exact other (known.trans here.symm)
          · have unseen := Bool.not_eq_true _ ▸ seen
            rw [serveRevents_unseen unseen, serveSlot_eq]
            split_ifs
            · rfl
            · exact (serveRevents_unseen unseen index _).symm
  exact step (List.finRange 16) [] (List.append_nil _).symm

/-! ### A round that does not -/

/-- Every `send`, allocation and `accept4` succeeds; three seconds pass between the poll of the second
round and its clock. -/
def late : Outside where
  now n := if n < 5 then 0 else 3
  send _ := .taken
  malloc _ := true
  command _ _ := ⟨[], false⟩
  accepted _ := true
  reads _ := true
  epoch := []
  pid := 1
  deviceName := []

/-- A client connects and hangs up before it has said HELLO, and another one waits. -/
def hungUp : Round where
  incoming := true
  revents i := { hangUp := i.val == 0 }

/-- The new client takes the slot and the descriptor of the first and is disconnected for its hang-up. -/
theorem staleHangUp : ¬ ∀ (outside : Outside) (others : List ℕ) (rounds : List Round) (round : Round),
    (Host.polling outside others rounds).ActsOnPolled outside others round := by
  intro always
  have loyal := always late [0, 1, 2] [{ incoming := true }] hungUp (0, 1) (by decide +kernel)
  revert loyal
  decide +kernel

end Rounds

end OscmixDesk.Backend
