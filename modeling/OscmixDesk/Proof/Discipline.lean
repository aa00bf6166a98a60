/-
**A client keeps its discipline against any server.**

What went over a socket is entered in a ledger, packet by packet: the request that waits for its reply, the
lease that the last BEGIN was granted, and whether the packet just read must close the connection. A method
is begun with a ledger that its connection agrees with (`Open`), or with a closed connection (`Shut`), and
ends with one, whatever the socket gives it. So what a connection sends is what its ledger allows
(`writeDiscipline`).
-/

import OscmixDesk.Foundation.Traces
import OscmixDesk.Model.Connection

namespace OscmixDesk.Backend

open Effects

/-! ### The ledger -/

/-- A packet is the reply to this request. -/
def Answers (packet : Raw) (kind : Request) (number : ℕ) : Prop :=
  packet.kind = kind.number ||| replyBit ∧ packet.request.toNat = number

instance (packet : Raw) (kind : Request) (number : ℕ) : Decidable (Answers packet kind number) :=
  inferInstanceAs (Decidable (_ ∧ _))

/-- A packet is a lease event that does not say that this lease is held. -/
def Contradicts (packet : Raw) (held : Option UInt64) : Prop :=
  packet.kind = leaseKind ∧ held ≠ none ∧ (held ≠ some packet.sequence ∨ packet.code ≠ controlBusy)

instance (packet : Raw) (held : Option UInt64) : Decidable (Contradicts packet held) :=
  inferInstanceAs (Decidable (_ ∧ _ ∧ (_ ∨ _)))

/-- What the packets over a socket come to. -/
structure Ledger where
  closed : Bool := false
  /-- The number of the last request. -/
  number : ℕ := 0
  /-- The request that waits for its reply. -/
  pending : Option (Request × ℕ) := none
  /-- The lease that the last BEGIN was granted, until it is given up. -/
  held : Option UInt64 := none
  /-- The packet just read is a reply to nothing that waits, or contradicts the lease. -/
  broken : Bool := false
  deriving DecidableEq, Repr

/-- The lease after a request: BEGIN asks for another, END gives it up. -/
def Request.keeps (held : Option UInt64) : Request → Option UInt64
  | .begin => none
  | .end => none
  | _ => held

/-- The lease after a reply. -/
def Request.grants (kind : Request) (code : UInt32) (sequence : UInt64) (held : Option UInt64) :
    Option UInt64 :=
  if kind = .begin ∧ code = controlOk then some sequence else held

namespace Ledger

/-- A reply is read. -/
def answered (packet : Raw) (ledger : Ledger) : Ledger :=
  match ledger.pending with
  | some (kind, number) =>
      if Answers packet kind number then
        { ledger with pending := none, held := kind.grants packet.code packet.sequence ledger.held }
      else { ledger with broken := true }
  | none => { ledger with broken := true }

def next (ledger : Ledger) : Occurrence → Ledger
  | .sent request =>
      { ledger with
        number := request.number
        pending := some (request.kind, request.number)
        held := request.kind.keeps ledger.held }
  | .read packet =>
      if packet.isReply then ledger.answered packet
      else { ledger with broken := Contradicts packet ledger.held }
  | .closed => { ledger with closed := true, pending := none, held := none, broken := false }

/-- What may come next. Requests are numbered one after the other; a request waits for no other, and a
WRITE carries the lease that is held. Nothing follows a closed connection, and only its end a packet that
must close it. -/
def Allows (ledger : Ledger) : Occurrence → Prop
  | .sent request => ledger.closed = false ∧ ledger.broken = false ∧ ledger.pending = none
      ∧ request.number = ledger.number + 1 ∧ (request.kind = .write → ledger.held = some request.token)
  | .read _ => ledger.closed = false ∧ ledger.broken = false
  | .closed => True

end Ledger

/-- The ledger of a history. -/
def ledger (history : List Occurrence) : Ledger :=
  history.foldl Ledger.next {}

/-- Everything was allowed after what came before it. -/
def Disciplined (history : List Occurrence) : Prop :=
  ∀ before occurrence after, history = before ++ occurrence :: after →
    (ledger before).Allows occurrence

theorem ledger_append (history : List Occurrence) (occurrence : Occurrence) :
    ledger (history ++ [occurrence]) = (ledger history).next occurrence := by
  simp [ledger]

theorem disciplined_append {history : List Occurrence} {occurrence : Occurrence}
    (disciplined : Disciplined history) (allowed : (ledger history).Allows occurrence) :
    Disciplined (history ++ [occurrence]) :=
  Traces.Lawful.append disciplined allowed

namespace Connection

variable {around : Surroundings} {α β : Type} {c : Connection}

/-! ### Rules -/

section Rules

variable {ok : α → Connection → Prop} {stopped : Trouble → Connection → Prop}

@[simp] theorem ends_get {ok : Connection → Connection → Prop} :
    Ends get c ok stopped ↔ ok c c := Iff.rfl

@[simp] theorem ends_change {step : Connection → Connection} {ok : Unit → Connection → Prop} :
    Ends (change step) c ok stopped ↔ ok () (step c) := Iff.rfl

@[simp] theorem ends_question {ok : ℕ → Connection → Prop} :
    Ends question c ok stopped ↔ ok c.clock { c with clock := c.clock + 1 } := Iff.rfl

@[simp] theorem ends_now {ok : ℚ → Connection → Prop} :
    Ends (now around) c ok stopped ↔ ok (around.clock c.clock) { c with clock := c.clock + 1 } :=
  Iff.rfl

/-- What every round keeps until its result holds of a loop, unless its rounds run out. -/
theorem ends_loop {round : Talk (Option α)} (invariant : Connection → Prop)
    (step : ∀ c, invariant c →
      Ends round c (fun result c' => (∀ value, result = some value → ok value c')
        ∧ (result = none → invariant c')) stopped)
    (cut : ∀ c, invariant c → stopped .running c) (rounds : ℕ) (held : invariant c) :
    Ends (loop round rounds) c ok stopped := by
  induction rounds generalizing c with
  | zero => exact cut c held
  | succ rounds ih =>
      show Ends (round >>= _) c ok stopped
      rw [ends_bind]
      refine (step c held).imp (fun result c' known => ?_) fun _ _ known => known
      cases result with
      | none => exact ih (known.2 rfl)
      | some value => exact known.1 value rfl

end Rules

/-! ### Stages -/

/-- The connection is open, and its ledger says what waits and what is held. -/
def Stage (pending : Option (Request × ℕ)) (held : Option UInt64) (c : Connection) : Prop :=
  Disciplined c.history ∧ ledger c.history = ⟨false, c.requestId, pending, held, false⟩ ∧ c.closed = false

/-- The lease that the connection has is the one its ledger says. -/
def Open (pending : Option (Request × ℕ)) (c : Connection) : Prop :=
  Stage pending c.lease c

/-- The connection is closed. -/
def Shut (c : Connection) : Prop :=
  Disciplined c.history ∧ (ledger c.history).closed = true ∧ (ledger c.history).broken = false
    ∧ c.closed = true ∧ c.lease = none

/-- A call may begin. -/
def Ready (c : Connection) : Prop :=
  Open none c ∨ Shut c

/-- A run that is cut off may wait for a reply. -/
def Stopped (trouble : Trouble) (c : Connection) : Prop :=
  Ready c ∨ trouble = .running ∧ ∃ pending, Open pending c

/-- A packet was read, and nothing made of it yet. -/
def Came (pending : Option (Request × ℕ)) (held : Option UInt64) (packet : Raw) (c : Connection) : Prop :=
  Disciplined c.history ∧ c.closed = false
    ∧ ledger c.history = (⟨false, c.requestId, pending, held, false⟩ : Ledger).next (.read packet)

theorem shut_closed (disciplined : Disciplined c.history) : Shut c.shut := by
  have ended : ledger c.shut.history = (ledger c.history).next .closed := ledger_append _ _
  refine ⟨disciplined_append disciplined trivial, ?_, ?_, rfl, rfl⟩
  · rw [ended]
    rfl
  · rw [ended]
    rfl

theorem Shut.stopped (shut : Shut c) (trouble : Trouble) : Stopped trouble c :=
  Or.inl (Or.inr shut)

/-! ### Specifications -/

section Specs

variable {pending : Option (Request × ℕ)} {held : Option UInt64}

theorem ends_check {ok : Unit → Connection → Prop} {stopped : Trouble → Connection → Prop}
    (opened : c.closed = false) (goes : ok () { c with clock := c.clock + 1 })
    (stops : stopped .cancelled (shut { c with clock := c.clock + 1 })) :
    Ends (check around) c ok stopped := by
  unfold check
  rw [ends_bind, ends_get, if_neg (by simp [opened]), ends_bind, ends_question, ends_ite]
  exact ⟨fun _ => stops, fun _ => goes⟩

/-- A closed connection passes no check. -/
theorem check_shut (shut : Shut c) {ok : Unit → Connection → Prop} {stopped : Trouble → Connection → Prop}
    (stops : stopped .closed c) : Ends (check around) c ok stopped := by
  unfold check
  rw [ends_bind, ends_get, if_pos shut.2.2.2.1]
  exact stops

/-- A request is sent, if its token may be. -/
theorem sendRequest_stage (stage : Stage none held c) (kind : Request) (code : UInt32) (data : List UInt8)
    (token : Option UInt64) (allowed : kind = .write → held = some (token.getD c.generation)) :
    Ends (sendRequest around kind code data token) c
      (fun number c' => Stage (some (kind, number)) (kind.keeps held) c' ∧ c'.lease = c.lease)
      fun _ => Shut := by
  obtain ⟨disciplined, entered, opened⟩ := stage
  have sent : Disciplined (c.history
      ++ [.sent (packed kind code data token { c with requestId := c.requestId + 1 })]) := by
    refine disciplined_append disciplined ?_
    rw [entered]
    exact ⟨rfl, rfl, rfl, rfl, allowed⟩
  unfold sendRequest
  rw [ends_bind]
  refine ends_check opened ?_ (shut_closed disciplined)
  rw [ends_bind, ends_get, ends_ite]
  refine ⟨fun _ => shut_closed disciplined, fun _ => ?_⟩
  simp only [ends_bind, ends_get, ends_change, ends_question]
  cases around.outgoing (c.clock + 1) with
  | failed => exact shut_closed disciplined
  | incomplete => exact shut_closed sent
  | taken =>
      refine ⟨⟨sent, ?_, opened⟩, rfl⟩
      show ledger (c.history ++ [_]) = _
      rw [ledger_append, entered]
      rfl

/-- What is read is entered, and nothing else changes. -/
theorem receive_stage (stage : Stage pending held c) :
    Ends (receive around) c
      (fun result c' => (result = none → Stage pending held c')
        ∧ (∀ packet, result = some packet → Came pending held packet c') ∧ c'.lease = c.lease)
      fun _ => Shut := by
  obtain ⟨disciplined, entered, opened⟩ := stage
  unfold receive
  rw [ends_bind]
  refine ends_check opened ?_ (shut_closed disciplined)
  simp only [ends_bind, ends_question]
  cases around.incoming (c.clock + 1) with
  | quiet =>
      refine ⟨fun _ => ⟨disciplined, entered, opened⟩, fun _ none => ?_, rfl⟩
      exact absurd none.symm (Option.some_ne_none _)
  | failed => exact shut_closed disciplined
  | packet bytes truncated =>
      dsimp only
      rw [ends_ite]
      refine ⟨fun _ => shut_closed disciplined, fun _ => ?_⟩
      rw [ends_ite]
      refine ⟨fun _ => shut_closed disciplined, fun _ => ?_⟩
      rw [ends_ite]
      refine ⟨fun _ => shut_closed disciplined, fun _ => ?_⟩
      rw [ends_bind, ends_change, ends_pure]
      refine ⟨fun none => absurd none (Option.some_ne_none _), fun packet same => ?_, rfl⟩
      obtain rfl := Option.some_inj.mp same
      refine ⟨disciplined_append disciplined ?_, opened, ?_⟩
      · rw [entered]
        exact ⟨rfl, rfl⟩
      · show ledger (c.history ++ [_]) = _
        rw [ledger_append, entered]
        rfl

/-- A reply is no event. -/
theorem reply_kinds {packet : Raw} (reply : packet.isReply = true) :
    packet.kind ≠ leaseKind ∧ packet.kind ≠ windowKind ∧ packet.kind ≠ observationKind := by
  refine ⟨?_, ?_, ?_⟩
  · intro same
    rw [Raw.isReply, same] at reply
    revert reply
    decide
  · intro same
    rw [Raw.isReply, same] at reply
    revert reply
    decide
  · intro same
    rw [Raw.isReply, same] at reply
    revert reply
    decide

/-- What is no reply and does not contradict the lease leaves the ledger. -/
theorem Came.stays {packet : Raw} (came : Came pending held packet c) (plain : packet.isReply = false)
    (fits : ¬ Contradicts packet held) : Stage pending held c := by
  obtain ⟨disciplined, opened, entered⟩ := came
  refine ⟨disciplined, ?_, opened⟩
  rw [entered]
  simp [Ledger.next, plain, fits]

/-- An event leaves the connection as it was, or closes it; a reply closes it. -/
theorem event_stage {packet : Raw} (came : Came pending c.lease packet c) :
    Ends (event packet) c (fun _ c' => Open pending c' ∧ c'.lease = c.lease) fun _ => Shut := by
  have close : Shut c.shut := shut_closed came.1
  unfold event
  rw [ends_ite]
  refine ⟨fun _ => close, fun _ => ?_⟩
  by_cases reply : packet.isReply = true
  · obtain ⟨lease, window, observation⟩ := reply_kinds reply
    rw [if_neg lease, if_neg window, if_neg observation]
    exact close
  replace reply : packet.isReply = false := by simpa using reply
  by_cases lease : packet.kind = leaseKind
  · rw [if_pos lease]
    unfold leaseEvent
    rw [ends_bind, ends_get, ends_ite]
    refine ⟨fun _ => close, fun _ => ?_⟩
    rw [ends_ite]
    refine ⟨fun _ => close, fun fits => ?_⟩
    exact ⟨came.stays reply fun contradicts => fits contradicts.2, rfl⟩
  have stage : Open pending c := came.stays reply fun contradicts => lease contradicts.1
  rw [if_neg lease]
  by_cases window : packet.kind = windowKind
  · rw [if_pos window, ends_ite]
    exact ⟨fun _ => close, fun _ => ⟨stage, rfl⟩⟩
  rw [if_neg window]
  by_cases observation : packet.kind = observationKind
  · rw [if_pos observation]
    unfold observationEvent
    rw [ends_bind, ends_get, ends_ite]
    refine ⟨fun _ => close, fun _ => ?_⟩
    rw [ends_bind, ends_change, ends_ite]
    exact ⟨fun _ => close, fun _ => ⟨stage, rfl⟩⟩
  · rw [if_neg observation]
    exact close

theorem receiveEvent_stage (opened : Open pending c) :
    Ends (receiveEvent around) c (fun _ c' => Open pending c' ∧ c'.lease = c.lease) fun _ => Shut := by
  unfold receiveEvent
  rw [ends_bind]
  refine (receive_stage opened).imp (fun result c' known => ?_) fun _ _ shut => shut
  obtain ⟨quiet, came, lease⟩ := known
  rw [← lease] at quiet came ⊢
  cases result with
  | none => exact ⟨quiet rfl, rfl⟩
  | some packet => exact event_stage (came packet rfl)

/-- The reply to a request, or the end of the connection. -/
theorem acknowledgement_stage {kind : Request} {number : ℕ} (opened : Open (some (kind, number)) c) :
    Ends (acknowledgement around kind number) c
      (fun reply c' => Stage none (kind.grants reply.1 reply.2.1 c.lease) c' ∧ c'.lease = c.lease)
      Stopped := by
  unfold acknowledgement
  rw [ends_bind, ends_now]
  refine ends_loop (fun c' => Open (some (kind, number)) c' ∧ c'.lease = c.lease) (fun c' known => ?_)
    (fun c' known => Or.inr ⟨rfl, _, known.1⟩) _ ⟨opened, rfl⟩
  obtain ⟨opened, lease⟩ := known
  unfold awaitReply
  rw [ends_bind, ends_now, ends_ite]
  refine ⟨fun _ => (shut_closed opened.1).stopped _, fun _ => ?_⟩
  rw [ends_bind]
  have here : Stage (some (kind, number)) c'.lease { c' with clock := c'.clock + 1 } := opened
  refine (receive_stage here).imp (fun result d known => ?_) fun _ _ shut => shut.stopped _
  obtain ⟨quiet, came, same⟩ := known
  replace same : d.lease = c'.lease := same
  rw [← same] at quiet came lease
  cases result with
  | none => exact ⟨nofun, fun _ => ⟨quiet rfl, lease⟩⟩
  | some packet =>
      have came := came packet rfl
      have close (trouble : Trouble) : Stopped trouble d.shut := (shut_closed came.1).stopped trouble
      dsimp only
      rw [ends_ite]
      refine ⟨fun reply => ?_, fun plain => ?_⟩
      · rw [ends_ite]
        refine ⟨fun _ => close _, fun answers => ?_⟩
        rw [ends_ite]
        refine ⟨fun _ => close _, fun _ => ⟨fun value same' => ?_, nofun⟩⟩
        obtain rfl := Option.some_inj.mp same'
        obtain ⟨disciplined, opened', entered⟩ := came
        refine ⟨⟨disciplined, ?_, opened'⟩, lease⟩
        have fits : Answers packet kind number := by simpa [Answers, not_or] using answers
        rw [entered]
        simp [Ledger.next, reply, Ledger.answered, fits, lease]
      · rw [ends_bind]
        refine (event_stage came).imp (fun _ e known => ?_) fun _ _ shut => shut.stopped _
        exact ⟨nofun, fun _ => ⟨known.1, known.2.trans lease⟩⟩

/-- A request and its reply. -/
theorem request_stage (stage : Stage none held c) {kind : Request} {code : UInt32} {data : List UInt8}
    {token : Option UInt64} (other : kind ≠ .write) (keeps : kind.keeps held = c.lease) :
    Ends (request around kind code data token) c
      (fun reply c' => Stage none (kind.grants reply.1 reply.2.1 c.lease) c' ∧ c'.lease = c.lease)
      Stopped := by
  unfold request
  rw [ends_bind]
  refine (sendRequest_stage stage kind code data token fun same => absurd same other).imp
    (fun number c' known => ?_) fun _ _ shut => shut.stopped _
  obtain ⟨stage', lease⟩ := known
  rw [keeps, ← lease] at stage'
  rw [← lease]
  exact acknowledgement_stage stage'

end Specs

/-! ### Calls -/

theorem Ready.disciplined (ready : Ready c) : Disciplined c.history := by
  rcases ready with opened | shut
  · exact opened.1
  · exact shut.1

/-- However a program ends, a call may begin; where it returns the lease is as it was. -/
def Keeping (prog : Talk α) : Prop :=
  ∀ c, Ready c → Ends prog c (fun _ c' => Ready c' ∧ c'.lease = c.lease) Stopped

namespace Keeping

variable {first yes no : Talk α} {next : α → Talk β}

theorem pure (value : α) : Keeping (Pure.pure value : Talk α) := fun _ ready => ⟨ready, rfl⟩

theorem throw (trouble : Trouble) : Keeping (throw trouble : Talk α) := fun _ ready => Or.inl ready

theorem fail (trouble : Trouble) : Keeping (fail trouble : Talk α) := fun _ ready =>
  (shut_closed ready.disciplined).stopped trouble

theorem get : Keeping get := fun _ ready => ⟨ready, rfl⟩

theorem now : Keeping (now around) := fun _ ready => ⟨ready, rfl⟩

theorem bind (keeps : Keeping first) (then' : ∀ value, Keeping (next value)) :
    Keeping (first >>= next) := by
  intro c ready
  rw [ends_bind]
  refine (keeps c ready).imp (fun value c' known => ?_) fun _ _ stopped => stopped
  rw [← known.2]
  exact then' value c' known.1

theorem ite {holds : Prop} [Decidable holds] (ifSo : Keeping yes) (otherwise : Keeping no) :
    Keeping (if holds then yes else no) := by
  by_cases known : holds
  · rw [if_pos known]
    exact ifSo
  · rw [if_neg known]
    exact otherwise

theorem loop {round : Talk (Option α)} (keeps : Keeping round) (rounds : ℕ) : Keeping (loop round rounds) := by
  intro c ready
  refine ends_loop (fun c' => Ready c' ∧ c'.lease = c.lease) (fun c' known => ?_)
    (fun c' known => Or.inl known.1) rounds ⟨ready, rfl⟩
  refine (keeps c' known.1).imp (fun result d same => ?_) fun _ _ stopped => stopped
  exact ⟨fun _ _ => ⟨same.1, same.2.trans known.2⟩, fun _ => ⟨same.1, same.2.trans known.2⟩⟩

/-- Fields that the ledger does not know may change. -/
theorem change {step : Connection → Connection} (same : ∀ c, (step c).history = c.history
    ∧ (step c).requestId = c.requestId ∧ (step c).closed = c.closed ∧ (step c).lease = c.lease) :
    Keeping (change step) := by
  intro c ready
  obtain ⟨history, number, closed, lease⟩ := same c
  refine ⟨?_, lease⟩
  unfold Ready Open Stage Shut at *
  rw [history, number, closed, lease]
  exact ready

end Keeping

theorem check_keeping : Keeping (check around) := by
  intro c ready
  rcases ready with opened | shut
  · exact ends_check opened.2.2 ⟨Or.inl opened, rfl⟩ ((shut_closed opened.1).stopped _)
  · exact check_shut shut (shut.stopped _)

theorem receiveEvent_keeping : Keeping (receiveEvent around) := by
  intro c ready
  rcases ready with opened | shut
  · exact (receiveEvent_stage opened).imp (fun _ _ known => ⟨Or.inl known.1, known.2⟩)
      fun _ _ shut => shut.stopped _
  · unfold receiveEvent receive
    rw [ends_bind, ends_bind]
    exact check_shut shut (shut.stopped _)

/-- A closed connection sends nothing. -/
theorem sendRequest_shut (shut : Shut c) {kind : Request} {code : UInt32} {data : List UInt8}
    {token : Option UInt64} {ok : ℕ → Connection → Prop} :
    Ends (sendRequest around kind code data token) c ok fun _ => Shut := by
  unfold sendRequest
  rw [ends_bind]
  exact check_shut shut shut

theorem request_keeping {kind : Request} {code : UInt32} {data : List UInt8} {token : Option UInt64}
    (keeps : ∀ held, kind.keeps held = held) (other : kind ≠ .write) :
    Keeping (request around kind code data token) := by
  intro c ready
  rcases ready with opened | shut
  · refine (request_stage opened other (keeps _)).imp (fun reply c' known => ?_) fun _ _ stopped => stopped
    obtain ⟨stage, lease⟩ := known
    refine ⟨Or.inl ?_, lease⟩
    have notBegin : kind ≠ .begin := by
      rintro rfl
      exact absurd (keeps (some 0)) (by simp [Request.keeps])
    unfold Open
    rw [lease]
    simpa [Request.grants, notBegin] using stage
  · unfold request
    rw [ends_bind]
    exact (sendRequest_shut shut).imp (fun _ _ never => never) fun _ _ shut => shut.stopped _

theorem keepalive_keeping (token : UInt64) : Keeping (keepalive around token) := by
  unfold keepalive
  refine Keeping.now.bind fun time => Keeping.get.bind fun c => Keeping.ite (Keeping.pure ()) ?_
  refine (request_keeping (fun _ => rfl) (by decide)).bind fun reply => Keeping.get.bind fun c => ?_
  refine Keeping.ite (Keeping.fail _) (Keeping.now.bind fun time => Keeping.change fun _ => ?_)
  exact ⟨rfl, rfl, rfl, rfl⟩

theorem heartbeat_keeping : Keeping (heartbeat around) := by
  unfold heartbeat
  refine check_keeping.bind fun _ => Keeping.get.bind fun c => ?_
  cases c.lease with
  | none => exact Keeping.pure ()
  | some token => exact keepalive_keeping token

theorem wait_keeping (seconds : ℚ) : Keeping (wait around seconds) := by
  unfold wait
  refine Keeping.now.bind fun time => Keeping.loop ?_ _
  unfold pause
  refine heartbeat_keeping.bind fun _ => Keeping.now.bind fun time => Keeping.ite (Keeping.pure _) ?_
  exact receiveEvent_keeping.bind fun _ => Keeping.pure none

theorem retry_keeping (trouble : Trouble) (deadline : ℚ) : Keeping (retry around trouble deadline) := by
  unfold retry
  refine Keeping.now.bind fun time => Keeping.ite (Keeping.throw _) (Keeping.now.bind fun time => ?_)
  exact (wait_keeping _).bind fun _ => Keeping.pure none

theorem discard_keeping : Keeping discard :=
  Keeping.change fun _ => ⟨rfl, rfl, rfl, rfl⟩

theorem nextDelivery_keeping (timeout : ℚ) : Keeping (nextDelivery around timeout) := by
  unfold nextDelivery
  refine Keeping.now.bind fun time => Keeping.loop ?_ _
  unfold takeDelivery
  refine heartbeat_keeping.bind fun _ => Keeping.get.bind fun c => ?_
  cases c.queue with
  | nil =>
      refine Keeping.now.bind fun time => Keeping.ite (Keeping.pure _) ?_
      exact receiveEvent_keeping.bind fun _ => Keeping.pure none
  | cons delivery rest =>
      refine Keeping.bind (Keeping.change fun _ => ?_) fun _ => Keeping.pure _
      exact ⟨rfl, rfl, rfl, rfl⟩

theorem messages_keeping (timeout : ℚ) : Keeping (messages around timeout) := by
  unfold messages
  refine (nextDelivery_keeping timeout).bind fun result => ?_
  cases result with
  | none => exact Keeping.pure []
  | some delivery =>
      dsimp only
      cases decoded around delivery with
      | none => exact Keeping.fail _
      | some reports => exact Keeping.pure reports

theorem requestDump_keeping (timeout : ℚ) : Keeping (requestDump around timeout) := by
  unfold requestDump
  refine Keeping.now.bind fun time => Keeping.loop ?_ _
  unfold refresh
  refine heartbeat_keeping.bind fun _ => Keeping.get.bind fun c => ?_
  refine (request_keeping (fun _ => rfl) (by decide)).bind fun reply => discard_keeping.bind fun _ => ?_
  exact Keeping.ite (Keeping.pure _) (Keeping.ite (Keeping.throw _) (retry_keeping _ _))

/-- However a program ends, a call may begin. -/
def Calling (prog : Talk α) : Prop :=
  ∀ c, Ready c → Ends prog c (fun _ => Ready) Stopped

theorem Keeping.calling {prog : Talk α} (keeps : Keeping prog) : Calling prog := fun c ready =>
  (keeps c ready).imp (fun _ _ known => known.1) fun _ _ stopped => stopped

/-- BEGIN is asked for while nothing is held, and its reply is the lease. -/
theorem acquire_ready (ready : Ready c) (free : c.lease = none) (deadline : ℚ) :
    Ends (acquire around deadline) c (fun result c' => Ready c' ∧ (result = none → c'.lease = none))
      Stopped := by
  unfold acquire
  rw [ends_bind]
  rcases ready with opened | shut
  swap
  · unfold request
    rw [ends_bind]
    exact (sendRequest_shut shut).imp (fun _ _ never => never) fun _ _ shut => shut.stopped _
  refine (request_stage opened (by decide) (show Request.keeps c.lease .begin = c.lease from free.symm)).imp
    (fun reply c' known => ?_) fun _ _ stopped => stopped
  obtain ⟨code, generation, payload⟩ := reply
  obtain ⟨stage, lease⟩ := known
  rw [free] at stage lease
  show Ends (discard >>= _) c' _ _
  rw [ends_bind, discard, ends_change, ends_ite]
  refine ⟨fun granted => ?_, fun refused => ?_⟩
  · rw [Request.grants, if_pos ⟨rfl, granted⟩] at stage
    simp only [ends_bind, ends_change, ends_now, ends_pure]
    exact ⟨Or.inl stage, fun none => absurd none (Option.some_ne_none _)⟩
  · rw [Request.grants, if_neg fun both => refused both.2] at stage
    have opened : Open none { c' with queue := [], queueBytes := 0 } := by
      unfold Open
      rw [show Connection.lease { c' with queue := [], queueBytes := 0 } = none from lease]
      exact stage
    rw [ends_ite]
    refine ⟨fun _ => Or.inl (Or.inl opened), fun _ => ?_⟩
    rw [ends_ite]
    refine ⟨fun _ => Or.inl (Or.inl opened), fun _ => ?_⟩
    refine (retry_keeping _ _ _ (Or.inl opened)).imp (fun _ d known => ?_) fun _ _ stopped => stopped
    exact ⟨known.1, fun _ => known.2.trans lease⟩

theorem begin_calling (timeout : ℚ) : Calling (begin around timeout) := by
  intro c ready
  unfold begin
  rw [ends_bind, ends_get, ends_ite]
  refine ⟨fun _ => Or.inl ready, fun free => ?_⟩
  rw [ends_bind, ends_now]
  refine ends_loop (fun c' => Ready c' ∧ c'.lease = none) (fun c' known => ?_)
    (fun c' known => Or.inl known.1) _ ⟨ready, not_not.mp free⟩
  refine (acquire_ready known.1 known.2 _).imp (fun result d later => ?_) fun _ _ stopped => stopped
  exact ⟨fun _ _ => later.1, fun none => ⟨later.1, later.2 none⟩⟩

/-- END gives the lease up before it is sent. -/
theorem finish_calling : Calling (finish around) := by
  intro c ready
  unfold finish
  rw [ends_bind]
  refine (check_keeping c ready).imp (fun _ d known => ?_) fun _ _ stopped => stopped
  rw [ends_bind, ends_get]
  cases held : d.lease with
  | none => exact Or.inl known.1
  | some token =>
      rcases known.1 with opened | shut
      swap
      · exact absurd (held.symm.trans shut.2.2.2.2) (by simp)
      have stage : Stage none d.lease { d with lease := none } := opened
      dsimp only
      rw [ends_bind, ends_change, ends_bind]
      refine (request_stage stage (by decide) rfl).imp (fun reply c' known => ?_) fun _ _ stopped => stopped
      obtain ⟨code, generation, payload⟩ := reply
      obtain ⟨stage', lease⟩ := known
      have ready' : Ready c' := by
        refine Or.inl ?_
        unfold Open
        rw [lease]
        exact stage'
      refine ((Keeping.ite (Keeping.fail _) (Keeping.change fun _ => ?_)) c' ready').imp
        (fun _ _ later => later.1) fun _ _ stopped => stopped
      exact ⟨rfl, rfl, rfl, rfl⟩

/-! ### Bursts -/

theorem pace_keeping : Keeping (pace around) := by
  unfold pace
  exact Keeping.now.bind fun time => Keeping.get.bind fun c =>
    Keeping.ite (wait_keeping _) (Keeping.pure ())

/-- A WRITE carries the lease. -/
theorem submit_ready (ready : Ready c) (data : Option (List UInt8)) {token : UInt64}
    (lease : c.lease = some token) :
    Ends (submit around data) c
      (fun number c' => Open (some (.write, number)) c' ∧ c'.lease = some token) Stopped := by
  unfold submit
  rw [ends_bind]
  refine (pace_keeping c ready).imp (fun _ d known => ?_) fun _ _ stopped => stopped
  rw [ends_bind]
  refine (heartbeat_keeping d known.1).imp (fun _ e later => ?_) fun _ _ stopped => stopped
  have held : e.lease = some token := later.2.trans (known.2.trans lease)
  cases data with
  | none => exact Or.inl later.1
  | some data =>
      dsimp only
      rw [ends_bind, ends_get]
      rcases later.1 with opened | shut
      swap
      · exact (sendRequest_shut shut).imp (fun _ _ never => never) fun _ _ shut => shut.stopped _
      refine (sendRequest_stage opened .write 0 data e.lease fun _ => ?_).imp (fun number f sent => ?_)
        fun _ _ shut => shut.stopped _
      · rw [held]
        rfl
      · refine ⟨?_, sent.2.trans held⟩
        unfold Open
        rw [sent.2]
        exact sent.1

theorem writeReply_ready {number : ℕ} (opened : Open (some (.write, number)) c) :
    Ends (writeReply around number) c (fun _ c' => Ready c' ∧ c'.lease = c.lease) Stopped := by
  unfold writeReply
  rw [ends_bind]
  refine (acknowledgement_stage opened).imp (fun reply c' known => ?_) fun _ _ stopped => stopped
  obtain ⟨code, generation, payload⟩ := reply
  obtain ⟨stage, lease⟩ := known
  have ready : Ready c' := by
    refine Or.inl ?_
    unfold Open
    rw [lease]
    exact stage
  rw [← lease]
  refine Keeping.bind Keeping.get (fun d => ?_) c' ready
  exact Keeping.ite (Keeping.fail _) (Keeping.pure code)

/-- A failure in a burst is named as one, and a run that is cut off as itself. -/
theorem stopped_named {trouble : Trouble} (stopped : Stopped trouble c) (written unwritten : List Path) :
    Stopped (named written unwritten trouble) c := by
  rcases stopped with ready | ⟨rfl, waits⟩
  · exact Or.inl ready
  · exact Or.inr ⟨rfl, waits⟩

theorem sendFrom_ready (burst : List (Path × Option (List UInt8))) (written : List Path) {token : UInt64}
    (ready : Ready c) (lease : c.lease = some token) :
    Ends (sendFrom around written burst) c (fun _ => Ready) Stopped := by
  induction burst generalizing c written with
  | nil => exact ready
  | cons command rest ih =>
      obtain ⟨path, data⟩ := command
      unfold sendFrom
      rw [ends_bind, ends_catch]
      refine (submit_ready ready data lease).imp (fun number d sent => ?_)
        fun _ _ stopped => stopped_named stopped _ _
      rw [ends_bind, ends_catch]
      refine (writeReply_ready sent.1).imp (fun code e replied => ?_)
        fun _ _ stopped => stopped_named stopped _ _
      rw [ends_ite]
      refine ⟨fun _ => Or.inl replied.1, fun _ => ?_⟩
      rw [ends_bind, ends_now, ends_bind, ends_change]
      refine ih _ replied.1 ?_
      exact replied.2.trans sent.2

theorem send_calling (burst : List (Path × Option (List UInt8))) : Calling (send around burst) := by
  intro c ready
  unfold send
  rw [ends_bind, ends_get, ends_ite]
  refine ⟨fun _ => Or.inl ready, fun held => ?_⟩
  obtain ⟨token, lease⟩ := Option.ne_none_iff_exists'.mp held
  exact sendFrom_ready burst [] ready lease

/-! ### Runs -/

theorem call_calling (use : Use) : Calling (call around use) := by
  cases use with
  | begin timeout => exact begin_calling timeout
  | heartbeat => exact heartbeat_keeping.calling
  | finish => exact finish_calling
  | wait seconds => exact (wait_keeping seconds).calling
  | nextDelivery timeout =>
      exact ((nextDelivery_keeping timeout).bind fun _ => Keeping.pure ()).calling
  | messages timeout => exact ((messages_keeping timeout).bind fun _ => Keeping.pure ()).calling
  | requestDump timeout => exact (requestDump_keeping timeout).calling
  | send burst => exact send_calling burst
  | close => exact fun c ready => Or.inr (shut_closed ready.disciplined)

theorem calls_calling (uses : List Use) : Calling (calls around uses) := by
  induction uses with
  | nil => exact fun c ready => ready
  | cons use rest ih =>
      intro c ready
      unfold calls
      rw [ends_bind, ends_catch]
      refine (call_calling use c ready).imp (fun _ d known => ih d known) fun trouble d stopped => ?_
      rw [ends_ite]
      refine ⟨fun cut => cut ▸ stopped, fun ended => ?_⟩
      rcases stopped with known | ⟨cut, -⟩
      · exact ih d known
      · exact absurd cut ended

theorem connect_calling (reader : Bool) : Calling (connect around reader) := by
  intro c ready
  unfold connect
  cases around.peer with
  | none => exact (Keeping.fail .peer c ready).imp (fun _ _ known => known.1) fun _ _ stopped => stopped
  | some pid =>
      dsimp only
      rw [ends_bind, ends_get, ends_bind, ends_catch]
      refine (request_keeping (fun _ => rfl) (by decide) c ready).imp (fun reply d known => ?_)
        fun trouble d stopped => ?_
      · obtain ⟨code, generation, payload⟩ := reply
        refine (?_ : Keeping (handshake pid code generation payload)).calling d known.1
        unfold handshake
        refine Keeping.ite (Keeping.fail _) (Keeping.ite (Keeping.fail _) ?_)
        refine Keeping.bind (Keeping.change fun _ => ?_) fun _ => Keeping.ite (Keeping.fail _)
          (Keeping.change fun _ => ?_)
        · exact ⟨rfl, rfl, rfl, rfl⟩
        · exact ⟨rfl, rfl, rfl, rfl⟩
      · rw [ends_ite]
        refine ⟨fun cut => cut ▸ stopped, fun ended => ?_⟩
        have disciplined : Disciplined d.history := by
          rcases stopped with known | ⟨cut, -⟩
          · exact known.disciplined
          · exact absurd cut ended
        exact (shut_closed disciplined).stopped trouble

/-- Whatever the server sends and whatever is called: all that went over the socket was allowed after what
came before it, and nothing that must close the connection is left with it open. -/
theorem writeDiscipline (around : Surroundings) (sources : UInt32) (reader : Bool) (uses : List Use) :
    (∀ before occurrence after,
      (program around reader uses { sources := sources }).2.history = before ++ occurrence :: after →
        (ledger before).Allows occurrence)
    ∧ (ledger (program around reader uses { sources := sources }).2.history).broken = false := by
  have started : Ready { sources := sources } := by
    refine Or.inl ⟨fun before occurrence after whole => ?_, rfl, rfl⟩
    simp at whole
  have ends : Ends (program around reader uses) { sources := sources } (fun _ => Ready) Stopped := by
    unfold program
    rw [ends_bind]
    exact (connect_calling reader _ started).imp (fun _ c ready => calls_calling uses c ready)
      fun _ _ stopped => stopped
  have settled (c : Connection) (ready : Ready c) : Disciplined c.history ∧ (ledger c.history).broken = false := by
    rcases ready with opened | shut
    · exact ⟨opened.1, by rw [opened.2.1]⟩
    · exact ⟨shut.1, shut.2.2.1⟩
  rcases result : program around reader uses { sources := sources } with ⟨trouble | value, c⟩
  · rcases ends.raised result with ready | ⟨-, pending, opened⟩
    · exact settled c ready
    · exact ⟨opened.1, by rw [opened.2.1]⟩
  · exact settled c (ends.returned result)

end Connection

end OscmixDesk.Backend
