/-
**What a client takes after a refresh is fresh.**

The reply that grants a REFRESH lies in the stream of its connection behind everything that was broadcast
before, and in front of everything after (`Vouched`). The client reads in order and empties its queue at
that reply, so what it takes later lies behind it (`Stored`), under numbers that grow (`Numbered`).
-/

import Mathlib.Logic.Relation
import OscmixDesk.Proof.Interleaving

namespace OscmixDesk.Backend

open Checks
open Relation (ReflTransGen)

variable {outside : Outside} {decodes : List UInt8 → Bool}

/-! ### The client's queue -/

/-- The delivery a packet carries. -/
def Packet.delivery (packet : Packet) : Delivery :=
  ⟨packet.code, packet.sequence, packet.payload⟩

section Client

variable {v w : View} {c : Control} {packet : Packet} {d : Delivery}

/-- A reply leaves the number of the last delivery. -/
theorem View.answered_sequence {call : Call} (taken : v.answered outside packet call = .ok w) :
    w.lastSequence = v.lastSequence := by
  unfold View.answered at taken
  cases call with
  | hello =>
      simp only [View.handshake] at taken
      cases payload : packet.payload with
      | none =>
          rw [payload] at taken
          cases taken
      | osc _ =>
          rw [payload] at taken
          cases taken
      | hello reply =>
          rw [payload] at taken
          dsimp only at taken
          split_ifs at taken
          obtain rfl := Except.ok.inj taken
          rfl
  | begin =>
      dsimp only at taken
      split_ifs at taken <;> obtain rfl := Except.ok.inj taken <;> rfl
  | finish token =>
      dsimp only at taken
      split_ifs at taken
      obtain rfl := Except.ok.inj taken
      rfl
  | heartbeat =>
      dsimp only at taken
      split_ifs at taken
      obtain rfl := Except.ok.inj taken
      rfl
  | write =>
      dsimp only at taken
      split_ifs at taken
      obtain rfl := Except.ok.inj taken
      rfl
  | requestDump =>
      obtain rfl := Except.ok.inj taken
      rfl

/-- A delivery is numbered after the last one; every other packet leaves that number. -/
theorem View.receive_sequence (taken : v.receive outside packet = .ok w) :
    (packet.kind = .observation ∧ v.lastSequence < packet.sequence ∧ w.lastSequence = packet.sequence)
      ∨ (packet.kind ≠ .observation ∧ w.lastSequence = v.lastSequence) := by
  have fits : packet.payload.length ≤ controlPayload := by
    by_contra long
    unfold View.receive at taken
    rw [if_pos (not_le.mp long)] at taken
    cases taken
  cases kind : packet.kind with
  | reply request =>
      refine Or.inr ⟨by simp, ?_⟩
      cases pending : v.pending with
      | none =>
          unfold View.receive at taken
          rw [if_neg (not_lt.mpr fits), kind, pending] at taken
          dsimp only at taken
          unfold View.event at taken
          rw [kind] at taken
          split_ifs at taken
      | some call =>
          rw [View.receive_reply kind pending fits] at taken
          unfold View.acknowledge at taken
          split_ifs at taken
          exact View.answered_sequence (v := { v with pending := none }) taken
  | event =>
      refine Or.inr ⟨by simp, ?_⟩
      rw [View.receive_event (by simp [kind]) fits] at taken
      unfold View.event at taken
      rw [kind] at taken
      dsimp only at taken
      split_ifs at taken
      obtain rfl := Except.ok.inj taken
      rfl
  | window =>
      refine Or.inr ⟨by simp, ?_⟩
      rw [View.receive_event (by simp [kind]) fits] at taken
      unfold View.event at taken
      rw [kind] at taken
      dsimp only at taken
      split_ifs at taken
      obtain rfl := Except.ok.inj taken
      rfl
  | observation =>
      refine Or.inl ⟨rfl, ?_⟩
      rw [View.receive_event (by simp [kind]) fits] at taken
      unfold View.event at taken
      rw [kind] at taken
      dsimp only at taken
      split_ifs at taken with request bad
      obtain rfl := Except.ok.inj taken
      simp only [not_or, UInt64.not_le] at bad
      exact ⟨bad.2.2.2.2.1, rfl⟩

/-- The queue after a packet: empty, as it was, or with a later delivery at its end. -/
theorem Control.receive_queue (outside : Outside) (packet : Packet) (c : Control) :
    c.view.lastSequence ≤ (c.receive outside packet).view.lastSequence
      ∧ ((c.receive outside packet).queue = [] ∨ (c.receive outside packet).queue = c.queue
        ∨ packet.kind = .observation ∧ c.view.lastSequence < packet.sequence
          ∧ (c.receive outside packet).queue = c.queue ++ [packet.delivery]
          ∧ (c.receive outside packet).view.lastSequence = packet.sequence) := by
  unfold Control.receive
  cases taken : c.view.receive outside packet with
  | error problem => exact ⟨UInt64.le_refl _, Or.inl rfl⟩
  | ok view =>
      dsimp only
      have sequence := View.receive_sequence taken
      cases kind : packet.kind with
      | observation =>
          rw [kind] at sequence
          obtain ⟨-, later, number⟩ := sequence.resolve_right fun other => other.1 rfl
          have grows : c.view.lastSequence ≤ view.lastSequence := by
            rw [number]
            exact UInt64.le_of_lt later
          dsimp only
          unfold Control.observe
          split_ifs
          · exact ⟨grows, Or.inl rfl⟩
          · refine ⟨grows, Or.inr (Or.inr ⟨rfl, later, ?_, number⟩)⟩
            rfl
      | event =>
          rw [kind] at sequence
          have same := (sequence.resolve_left fun same => by cases same.1).2
          exact ⟨same ▸ UInt64.le_refl _, Or.inr (Or.inl rfl)⟩
      | window =>
          rw [kind] at sequence
          have same := (sequence.resolve_left fun same => by cases same.1).2
          exact ⟨same ▸ UInt64.le_refl _, Or.inr (Or.inl rfl)⟩
      | reply request =>
          rw [kind] at sequence
          have same := (sequence.resolve_left fun same => by cases same.1).2
          cases request with
          | begin => exact ⟨same ▸ UInt64.le_refl _, Or.inl rfl⟩
          | refresh => exact ⟨same ▸ UInt64.le_refl _, Or.inl rfl⟩
          | hello => exact ⟨same ▸ UInt64.le_refl _, Or.inr (Or.inl rfl)⟩
          | «end» => exact ⟨same ▸ UInt64.le_refl _, Or.inr (Or.inl rfl)⟩
          | keepalive => exact ⟨same ▸ UInt64.le_refl _, Or.inr (Or.inl rfl)⟩
          | write => exact ⟨same ▸ UInt64.le_refl _, Or.inr (Or.inl rfl)⟩

/-- A request leaves the queue, or closes the connection. -/
theorem Control.sendRequest_queue (call : Call) (code : UInt32) (data : List UInt8) (token : UInt64) :
    ((c.sendRequest call code data token).1.queue = [] ∨ (c.sendRequest call code data token).1.queue = c.queue)
      ∧ (c.sendRequest call code data token).1.view.lastSequence = c.view.lastSequence := by
  unfold Control.sendRequest
  split_ifs
  · exact ⟨Or.inl rfl, rfl⟩
  · exact ⟨Or.inr rfl, rfl⟩

theorem Control.connect_queue (reader : Bool) (sources : UInt32) :
    (Control.connect reader sources).1.queue = [] := by
  unfold Control.connect
  exact (Control.sendRequest_queue _ _ _ _).1.elim id id

/-- The first delivery is taken from the queue, and if it is no message the queue is dropped. -/
theorem Control.messages_queue {first : Delivery} {rest : List Delivery} (queue : c.queue = first :: rest) :
    ((c.messages decodes).queue = [] ∨ (c.messages decodes).queue = rest)
      ∧ (c.messages decodes).view.lastSequence = c.view.lastSequence := by
  unfold Control.messages
  rw [queue]
  dsimp only
  cases first.payload with
  | none =>
      dsimp only
      split_ifs
      · exact ⟨Or.inl rfl, rfl⟩
      · exact ⟨Or.inr rfl, rfl⟩
  | hello _ =>
      dsimp only
      split_ifs
      · exact ⟨Or.inl rfl, rfl⟩
      · exact ⟨Or.inr rfl, rfl⟩
  | osc data =>
      dsimp only
      split_ifs
      · exact ⟨Or.inl rfl, rfl⟩
      · exact ⟨Or.inr rfl, rfl⟩

/-- The queue after a deed: as it was, without its first delivery, or empty. -/
theorem Control.act_queue (deed : Deed) :
    ((c.act decodes deed).1.queue = [] ∨ (c.act decodes deed).1.queue = c.queue
        ∨ deed = .messages ∧ (c.act decodes deed).1.queue = c.queue.tail)
      ∧ (c.act decodes deed).1.view.lastSequence = c.view.lastSequence := by
  have sent (c' : Control) (queue : c'.queue = c.queue) (same : c'.view.lastSequence = c.view.lastSequence)
      (call : Call) (code : UInt32) (data : List UInt8) (token : UInt64) :
      ((c'.sendRequest call code data token).1.queue = []
        ∨ (c'.sendRequest call code data token).1.queue = c.queue
        ∨ deed = .messages ∧ (c'.sendRequest call code data token).1.queue = c.queue.tail)
      ∧ (c'.sendRequest call code data token).1.view.lastSequence = c.view.lastSequence := by
    obtain ⟨queue', sequence⟩ := @Control.sendRequest_queue c' call code data token
    rw [queue] at queue'
    exact ⟨queue'.imp_right Or.inl, sequence.trans same⟩
  have nothing : (c.queue = [] ∨ c.queue = c.queue ∨ deed = .messages ∧ c.queue = c.queue.tail)
      ∧ c.view.lastSequence = c.view.lastSequence := ⟨Or.inr (Or.inl rfl), rfl⟩
  cases deed with
  | leave =>
      rw [Control.act]
      split
      · exact ⟨Or.inl rfl, rfl⟩
      · exact nothing
  | messages =>
      rw [Control.act]
      split
      · cases queue : c.queue with
        | nil =>
            have same : c.messages decodes = c := by
              unfold Control.messages
              rw [queue]
            rw [same]
            exact ⟨Or.inl queue, rfl⟩
        | cons first rest =>
            obtain ⟨left, last⟩ := @Control.messages_queue decodes c first rest queue
            exact ⟨left.imp_right fun tail => Or.inr ⟨rfl, tail⟩, last⟩
      · exact nothing
  | begin =>
      rw [Control.act]
      split
      · exact sent c rfl rfl _ _ _ _
      · exact nothing
  | requestDump =>
      rw [Control.act]
      split
      · exact sent c rfl rfl _ _ _ _
      · exact nothing
  | heartbeat =>
      rw [Control.act, Control.act.ifOwner]
      cases c.view.lease with
      | none => exact nothing
      | some token =>
          dsimp only
          split
          · exact sent c rfl rfl _ _ _ _
          · exact nothing
  | finish =>
      rw [Control.act, Control.act.ifOwner]
      cases c.view.lease with
      | none => exact nothing
      | some token =>
          dsimp only
          split
          · exact sent { c with view := { c.view with lease := none } } rfl rfl _ _ _ _
          · exact nothing
  | write data =>
      rw [Control.act, Control.act.ifOwner]
      cases c.view.lease with
      | none => exact nothing
      | some token =>
          dsimp only
          split
          · exact sent c rfl rfl _ _ _ _
          · exact nothing

/-! ### Numbers -/

/-- What waits in the queue is numbered in order, after `number` and up to the last delivery read. -/
structure Control.Numbered (number : UInt64) (c : Control) : Prop where
  later : ∀ d ∈ c.queue, number < d.sequence
  last : ∀ d ∈ c.queue, d.sequence ≤ c.view.lastSequence
  sorted : c.queue.Pairwise fun d e => d.sequence < e.sequence
  reached : number ≤ c.view.lastSequence

variable {number : UInt64}

/-- A shorter queue is numbered as well. -/
theorem Control.Numbered.shorter {c' : Control} (numbered : c.Numbered number)
    (fewer : c'.queue.Sublist c.queue) (same : c.view.lastSequence ≤ c'.view.lastSequence) :
    c'.Numbered number where
  later d member := numbered.later d (fewer.subset member)
  last d member := UInt64.le_trans (numbered.last d (fewer.subset member)) same
  sorted := numbered.sorted.sublist fewer
  reached := UInt64.le_trans numbered.reached same

theorem Control.Numbered.receive (packet : Packet) (numbered : c.Numbered number) :
    (c.receive outside packet).Numbered number := by
  obtain ⟨last, empty | same | ⟨-, later, queue, sequence⟩⟩ := c.receive_queue outside packet
  · exact numbered.shorter (empty ▸ List.nil_sublist _) last
  · exact numbered.shorter (same ▸ List.Sublist.refl _) last
  · refine ⟨fun d member => ?_, fun d member => ?_, ?_, UInt64.le_trans numbered.reached last⟩
    · rw [queue, List.mem_append, List.mem_singleton] at member
      rcases member with old | rfl
      · exact numbered.later d old
      · exact UInt64.lt_of_le_of_lt numbered.reached later
    · rw [queue, List.mem_append, List.mem_singleton] at member
      rcases member with old | rfl
      · exact UInt64.le_trans (numbered.last d old) last
      · exact sequence ▸ UInt64.le_refl _
    · rw [queue]
      refine List.pairwise_append.mpr ⟨numbered.sorted, List.pairwise_singleton _ _, ?_⟩
      intro d old e new
      obtain rfl := List.mem_singleton.mp new
      exact UInt64.lt_of_le_of_lt (numbered.last d old) later

theorem Control.Numbered.act (deed : Deed) (numbered : c.Numbered number) :
    (c.act decodes deed).1.Numbered number := by
  obtain ⟨empty | same | ⟨-, tail⟩, last⟩ := @Control.act_queue decodes c deed
  · exact numbered.shorter (empty ▸ List.nil_sublist _) (last ▸ UInt64.le_refl _)
  · exact numbered.shorter (same ▸ List.Sublist.refl _) (last ▸ UInt64.le_refl _)
  · exact numbered.shorter (tail ▸ List.tail_sublist _) (last ▸ UInt64.le_refl _)

end Client

/-! ### What was sent before a REFRESH -/

/-- Every reply that grants a REFRESH is vouched for, with what was sent before it. -/
def Vouched (mark : UInt32 → List Packet → Prop) (packets : List Packet) : Prop :=
  ∀ before reply after, packets = before ++ reply :: after → reply.Grants → mark reply.request before

section Vouched

variable {mark mark' : UInt32 → List Packet → Prop} {packets : List Packet}

theorem vouched_nil (mark : UInt32 → List Packet → Prop) : Vouched mark [] := by
  intro before reply after whole
  simp at whole

theorem Vouched.mono (vouched : Vouched mark packets)
    (more : ∀ request sent, mark request sent → mark' request sent) : Vouched mark' packets :=
  fun before reply after whole grants => more _ _ (vouched before reply after whole grants)

theorem Vouched.push (vouched : Vouched mark packets) (packet : Packet)
    (granted : packet.Grants → mark packet.request packets) : Vouched mark (packets ++ [packet]) := by
  intro before reply after whole grants
  rcases List.eq_nil_or_concat after with rfl | ⟨rest, last, rfl⟩
  · obtain ⟨rfl, same⟩ := List.append_inj' whole rfl
    obtain rfl : packet = reply := by simpa using same
    exact granted grants
  · rw [List.concat_eq_append, ← List.cons_append, ← List.append_assoc] at whole
    obtain ⟨same, -⟩ := List.append_inj' whole rfl
    exact vouched before reply rest same grants

theorem ordinary_vouched (mark : UInt32 → List Packet → Prop) : Ordinary (Vouched mark) where
  shorter first second vouched before reply after whole :=
    vouched before reply (after ++ second) (by rw [whole, List.append_assoc, List.cons_append])
  longer first packet vouched plain := vouched.push packet fun grants => absurd grants plain

theorem Streamed.mono {n : ℕ} {s : Server} (streamed : Streamed (Vouched mark) n s)
    (more : ∀ request sent, mark request sent → mark' request sent) : Streamed (Vouched mark') n s where
  sound := streamed.sound
  live i known := (streamed.live i known).mono more
  wire := streamed.wire.mono more

end Vouched

namespace Net

/-- The server reads a REFRESH of a connection and grants it; until then this was sent there. -/
inductive Admits (outside : Outside) (n : ℕ) (request : UInt32) (sent : List Packet) : Net → Net → Prop
  | intro (net : Net) (index : Slot) (c : Control) (frame : Frame) (rest : List Frame) :
      (net.server.clients index).fd = some n → net.control n = some c → net.mail n = frame :: rest →
      frame.kind = some .refresh → frame.request = request →
      Served index frame (controlTick outside net.server) →
      Granted outside index frame.token (atService outside index frame net.server) →
      (atService outside index frame net.server).stream index n = sent →
      Admits outside n request sent net
        { net with
          server := receive outside index (.packet (some frame)) net.server
          mail := Function.update net.mail n rest }

variable {delivery : List UInt8 → Prop} {net net' : Net}

/-- On the way here a REFRESH was granted; until then this was sent to its connection. -/
def Marked (outside : Outside) (decodes : List UInt8 → Bool) (delivery : List UInt8 → Prop) (net : Net)
    (n : ℕ) (request : UInt32) (sent : List Packet) : Prop :=
  ∃ start granted, Reachable outside decodes delivery start ∧ Admits outside n request sent start granted
    ∧ ReflTransGen (Step outside decodes delivery) granted net

/-- Every client's connection carries replies that are vouched for. -/
structure Traced (outside : Outside) (decodes : List UInt8 → Bool) (delivery : List UInt8 → Prop)
    (net : Net) : Prop where
  sound : Sound net.server
  born : ∀ n c, net.control n = some c → n < net.server.connections
  vouched : ∀ n c, net.control n = some c →
    Streamed (Vouched (Marked outside decodes delivery net n)) n net.server

theorem Traced.on (traced : Traced outside decodes delivery net) (step : Step outside decodes delivery net net')
    {n : ℕ} {c : Control} (own : net.control n = some c) :
    Streamed (Vouched (Marked outside decodes delivery net' n)) n net.server :=
  (traced.vouched n c own).mono fun _ _ => fun ⟨start, granted, reachable, admits, steps⟩ =>
    ⟨start, granted, reachable, admits, steps.tail step⟩

/-- A turn of the server, with the clients as they are. -/
theorem traced_turn (traced : Traced outside decodes delivery net) (step : Step outside decodes delivery net net')
    (action : Action) (server : net'.server = act outside net.server action) (control : net'.control = net.control)
    (granted : ∀ n c index frame, net.control n = some c → Serving outside net.server action index frame →
      frame.kind = some .refresh → (net.server.clients index).fd = some n →
      Granted outside index frame.token (atService outside index frame net.server) →
      Marked outside decodes delivery net' n frame.request
        ((atService outside index frame net.server).stream index n)) :
    Traced outside decodes delivery net' := by
  have follows := @follows_act outside _ _ ⟨traced.sound, Grew.refl net.server⟩ action
  refine ⟨server ▸ follows.1, fun n c own => ?_, fun n c own => ?_⟩
  · rw [control] at own
    rw [server]
    exact lt_of_lt_of_le (traced.born n c own) follows.2.connections
  · rw [control] at own
    rw [server]
    refine act_streamed (ordinary_vouched _) (fun index frame serving refresh known allowed vouched => ?_)
      (traced.on step own)
    exact vouched.push _ fun _ => granted n c index frame own serving refresh known allowed

/-- A client that reads or acts leaves the connections. -/
theorem traced_client (traced : Traced outside decodes delivery net) (step : Step outside decodes delivery net net')
    (server : net'.server = net.server) {m : ℕ} {c c' : Control} (known : net.control m = some c)
    (control : net'.control = Function.update net.control m (some c')) :
    Traced outside decodes delivery net' := by
  have own (n : ℕ) (c : Control) (owned : net'.control n = some c) : ∃ c, net.control n = some c := by
    rw [control] at owned
    by_cases same : n = m
    · exact ⟨_, same ▸ known⟩
    · rw [Function.update_of_ne same] at owned
      exact ⟨c, owned⟩
  refine ⟨server ▸ traced.sound, fun n c owned => ?_, fun n c owned => ?_⟩
  · obtain ⟨c, before⟩ := own n c owned
    rw [server]
    exact traced.born n c before
  · obtain ⟨c, before⟩ := own n c owned
    rw [server]
    exact traced.on step before

/-- A new client has been sent nothing. -/
theorem traced_connect (traced : Traced outside decodes delivery net)
    (step : Step outside decodes delivery net net') (new : net.isNew outside)
    (server : net'.server = acceptClient outside net.server) {c' : Control}
    (control : net'.control = Function.update net.control net.server.connections (some c')) :
    Traced outside decodes delivery net' := by
  have follows := @follows_acceptClient outside _ _ ⟨traced.sound, Grew.refl net.server⟩
  refine ⟨server ▸ follows.1, fun n c own => ?_, fun n c own => ?_⟩
  · rw [control] at own
    rw [server, new]
    by_cases same : n = net.server.connections
    · exact same ▸ Nat.lt_succ_self _
    · rw [Function.update_of_ne same] at own
      exact Nat.lt_succ_of_lt (traced.born n c own)
  · rw [control] at own
    rw [server]
    refine acceptClient_streamed (ordinary_vouched _) _ ?_
    by_cases same : n = net.server.connections
    · subst same
      refine ⟨traced.sound, fun i known => ?_, ?_⟩
      · exact absurd (traced.sound.fresh i _ known) (lt_irrefl _)
      · rw [traced.sound.unborn _ (le_refl _)]
        exact vouched_nil _
    · rw [Function.update_of_ne same] at own
      exact traced.on step own

theorem traced_step (reachable : Reachable outside decodes delivery net)
    (traced : Traced outside decodes delivery net) (step : Step outside decodes delivery net net') :
    Traced outside decodes delivery net' := by
  have quiet {action : Action} (other : ∀ index frame, action ≠ .receive index (.packet (some frame)))
      {index : Slot} {frame : Frame} (serving : Serving outside net.server action index frame) : False :=
    other index frame serving.action
  have whole := step
  cases step with
  | tick =>
      exact traced_turn traced whole .tick rfl rfl
        fun _ _ _ _ _ serving => (quiet (by simp) serving).elim
  | hangUp index =>
      exact traced_turn traced whole (.hangUp index) rfl rfl
        fun _ _ _ _ _ serving => (quiet (by simp) serving).elim
  | writable index =>
      exact traced_turn traced whole (.writable index) rfl rfl
        fun _ _ _ _ _ serving => (quiet (by simp) serving).elim
  | ended index =>
      exact traced_turn traced whole (.receive index .ended) rfl rfl
        fun _ _ _ _ _ serving => (quiet (by simp) serving).elim
  | report bytes source =>
      exact traced_turn traced whole (.report bytes source) rfl rfl
        fun _ _ _ _ _ serving => (quiet (by simp) serving).elim
  | other =>
      exact traced_turn traced whole .accept rfl rfl
        fun _ _ _ _ _ serving => (quiet (by simp) serving).elim
  | foreign index connection packet fd alone =>
      refine traced_turn traced whole (.receive index (.packet packet)) rfl rfl
        fun n c i frame own serving _ known => ?_
      obtain ⟨rfl, -⟩ : index = i ∧ packet = some frame := by simpa using serving.action
      obtain rfl := Option.some_inj.mp (fd.symm.trans known)
      rw [alone] at own
      cases own
  | connect reader sources new some' known => exact traced_connect traced whole new rfl rfl
  | request index connection c frame rest fd own mail =>
      refine traced_turn traced whole (.receive index (.packet (some frame))) rfl rfl
        fun n c' i frame' _ serving refresh known allowed => ?_
      obtain ⟨rfl, rfl⟩ : index = i ∧ frame = frame' := by simpa using serving.action
      obtain rfl := Option.some_inj.mp (fd.symm.trans known)
      exact ⟨net, _, reachable, .intro net index c frame rest fd own mail refresh rfl serving.served allowed
        rfl, .refl⟩
  | read connection c packet own opened next => exact traced_client traced whole rfl own rfl
  | act connection c deed own => exact traced_client traced whole rfl own rfl

theorem traced_reachable (reachable : Reachable outside decodes delivery net) :
    Traced outside decodes delivery net := by
  induction reachable with
  | start =>
      refine ⟨sound_start, fun _ _ own => ?_, fun _ _ own => ?_⟩
      · cases own
      · cases own
  | step reachable step ih => exact traced_step reachable ih step

/-! ### The queue and the wire -/

/-- What is on the wire of a connection stays there. -/
theorem always_wires (outside : Outside) (start : Server) :
    Always outside fun s => ∀ n, start.wires n <+: s.wires n where
  asks _ held := held
  took s index connection packet rest held _ _ n := by
    rw [took_wires]
    split_ifs with same
    · subst same
      exact (held n).trans (List.prefix_append _ _)
    · exact held n
  close s index held _ _ := by
    rw [(closeClient_rest index s).2.2.2.2.1]
    exact held
  lose s index held _ _ := by
    show ∀ n, _ <+: (closeClient index s).wires n
    rw [(closeClient_rest index s).2.2.2.2.1]
    exact held
  event _ _ held _ _ := held
  told _ _ _ held _ _ := held
  counts _ held := held
  moves _ _ _ held _ := held
  begins _ _ held _ _ := held
  ends _ held := held
  opens _ _ held := held
  closes _ held := held
  window _ _ _ held _ _ _ := held
  greets _ _ _ _ held _ := held
  grants _ _ _ held _ := held
  timeless _ _ _ held := held
  executes _ _ _ _ held _ := held
  accepts s held := by
    unfold acceptClient
    split_ifs
    · exact held
    · cases (List.finRange 16).find? fun i => decide ((s.clients i).fd = none) with
      | none => exact held
      | some i => exact held

theorem wires_step (step : Step outside decodes delivery net net') (n : ℕ) :
    net.server.wires n <+: net'.server.wires n := by
  have acts (action : Action) : net.server.wires n <+: (act outside net.server action).wires n :=
    (always_wires outside net.server).act_keeps action (fun _ => List.prefix_rfl) n
  cases step with
  | tick => exact acts .tick
  | hangUp index => exact acts (.hangUp index)
  | writable index => exact acts (.writable index)
  | ended index => exact acts (.receive index .ended)
  | report bytes source => exact acts (.report bytes source)
  | other => exact acts .accept
  | foreign index connection packet fd alone => exact acts (.receive index (.packet packet))
  | connect reader sources new some' known => exact acts .accept
  | request index connection c frame rest fd own mail => exact acts (.receive index (.packet (some frame)))
  | read connection c packet own opened next => exact List.prefix_rfl
  | act connection c deed own => exact List.prefix_rfl

/-- A packet that carries a delivery. -/
def Delivers (packet : Packet) (d : Delivery) : Prop :=
  packet.kind = .observation ∧ packet.delivery = d

/-- The delivery came to a connection at this place, and the client has read so far. -/
def Came (net : Net) (n low : ℕ) (d : Delivery) : Prop :=
  ∃ place packet, low ≤ place ∧ place < net.taken n ∧ (net.server.wires n)[place]? = some packet
    ∧ Delivers packet d

/-- All that waits in the queue of a client came to it from a place on. -/
structure Stored (net : Net) (n low : ℕ) : Prop where
  read : low ≤ net.taken n
  came : ∀ c, net.control n = some c → ∀ d ∈ c.queue, Came net n low d

variable {n low : ℕ}

theorem placed_step (step : Step outside decodes delivery net net') {place : ℕ} {packet : Packet}
    (known : (net.server.wires n)[place]? = some packet) :
    (net'.server.wires n)[place]? = some packet := by
  obtain ⟨rest, grown⟩ := wires_step step n
  have short : place < (net.server.wires n).length := (List.getElem?_eq_some_iff.mp known).1
  rw [← grown, List.getElem?_append_left short, known]

theorem Came.later {d : Delivery} (came : Came net n low d) (step : Step outside decodes delivery net net')
    (read : net.taken n ≤ net'.taken n) : Came net' n low d := by
  obtain ⟨place, packet, low, before, known, carries⟩ := came
  exact ⟨place, packet, low, lt_of_lt_of_le before read, placed_step step known, carries⟩

theorem taken_step (step : Step outside decodes delivery net net') (n : ℕ) : net.taken n ≤ net'.taken n := by
  cases step with
  | read connection c packet own opened next =>
      by_cases same : n = connection
      · subst same
        simp
      · simp [same]
  | _ => exact le_refl _

/-- What a turn makes of a client. -/
theorem control_step (step : Step outside decodes delivery net net') {c' : Control}
    (own : net'.control n = some c') : net.control n = some c'
      ∨ (n = net.server.connections ∧ ∃ reader sources, (Control.connect reader sources).1 = c')
      ∨ (∃ c packet, net.control n = some c ∧ (net.server.wires n)[net.taken n]? = some packet
        ∧ net'.taken n = net.taken n + 1 ∧ c.receive outside packet = c')
      ∨ ∃ c deed, net.control n = some c ∧ (c.act decodes deed).1 = c' := by
  cases step with
  | connect reader sources new some' known =>
      by_cases same : n = net.server.connections
      · subst same
        exact Or.inr (Or.inl ⟨rfl, reader, sources, by simpa using own⟩)
      · exact Or.inl (by simpa [same] using own)
  | read connection c packet known opened next =>
      by_cases same : n = connection
      · subst same
        exact Or.inr (Or.inr (Or.inl ⟨c, packet, known, next, by simp, by simpa using own⟩))
      · exact Or.inl (by simpa [same] using own)
  | act connection c deed known =>
      by_cases same : n = connection
      · subst same
        exact Or.inr (Or.inr (Or.inr ⟨c, deed, known, by simpa using own⟩))
      · exact Or.inl (by simpa [same] using own)
  | _ => exact Or.inl own

theorem stored_step (stored : Stored net n low) (step : Step outside decodes delivery net net') :
    Stored net' n low := by
  have read := taken_step step n
  refine ⟨stored.read.trans read, fun c' own d member => ?_⟩
  have old {c : Control} (own : net.control n = some c) (member : d ∈ c.queue) : Came net' n low d :=
    (stored.came c own d member).later step read
  rcases control_step step own with same | ⟨-, reader, sources, rfl⟩ | ⟨c, packet, known, next, taken, rfl⟩
    | ⟨c, deed, known, rfl⟩
  · exact old same member
  · rw [Control.connect_queue] at member
    cases member
  · obtain ⟨-, empty | same | ⟨kind, -, queue, -⟩⟩ := c.receive_queue outside packet
    · rw [empty] at member
      cases member
    · exact old known (same ▸ member)
    · rw [queue, List.mem_append, List.mem_singleton] at member
      rcases member with before | rfl
      · exact old known before
      · refine ⟨net.taken n, packet, stored.read, ?_, placed_step step next, kind, rfl⟩
        rw [taken]
        exact Nat.lt_succ_self _
  · obtain ⟨empty | same | ⟨-, tail⟩, -⟩ := @Control.act_queue decodes c deed
    · rw [empty] at member
      cases member
    · exact old known (same ▸ member)
    · exact old known (List.mem_of_mem_tail (tail ▸ member))

/-- The deliveries of a client are numbered after `number`; a client that is yet to come starts at 0. -/
structure Counted (net : Net) (n : ℕ) (number : UInt64) : Prop where
  born : n < net.server.connections ∨ number = 0
  numbered : ∀ c, net.control n = some c → c.Numbered number

variable {number : UInt64}

theorem counted_step (sound : Sound net.server) (counted : Counted net n number)
    (step : Step outside decodes delivery net net') : Counted net' n number := by
  have acts (action : Action) :
      net.server.connections ≤ (act outside net.server action).connections :=
    (@follows_act outside _ _ ⟨sound, Grew.refl net.server⟩ action).2.connections
  have grows : net.server.connections ≤ net'.server.connections := by
    cases step with
    | tick => exact acts .tick
    | hangUp index => exact acts (.hangUp index)
    | writable index => exact acts (.writable index)
    | ended index => exact acts (.receive index .ended)
    | report bytes source => exact acts (.report bytes source)
    | other => exact acts .accept
    | foreign index connection packet fd alone => exact acts (.receive index (.packet packet))
    | connect reader sources new some' known => exact acts .accept
    | request index connection c frame rest fd own mail => exact acts (.receive index (.packet (some frame)))
    | read connection c packet own opened next => exact le_refl _
    | act connection c deed own => exact le_refl _
  refine ⟨counted.born.imp_left fun known => lt_of_lt_of_le known grows, fun c' own => ?_⟩
  rcases control_step step own with same | ⟨fresh, reader, sources, rfl⟩ | ⟨c, packet, known, -, -, rfl⟩
    | ⟨c, deed, known, rfl⟩
  · exact counted.numbered c' same
  · obtain rfl := counted.born.resolve_left (fresh ▸ lt_irrefl _)
    have empty := Control.connect_queue reader sources
    refine ⟨fun d member => ?_, fun d member => ?_, empty ▸ List.Pairwise.nil, UInt64.zero_le⟩
    · rw [empty] at member
      cases member
    · rw [empty] at member
      cases member
  · exact (counted.numbered c known).receive packet
  · exact (counted.numbered c known).act deed

theorem sound_reachable (reachable : Reachable outside decodes delivery net) : Sound net.server :=
  (traced_reachable reachable).sound

theorem counted_reachable (reachable : Reachable outside decodes delivery net) (n : ℕ) :
    Counted net n 0 := by
  induction reachable with
  | start => exact ⟨Or.inr rfl, fun c own => nomatch own⟩
  | step reachable step ih => exact counted_step (sound_reachable reachable) ih step

theorem stored_reachable (reachable : Reachable outside decodes delivery net) (n : ℕ) : Stored net n 0 := by
  induction reachable with
  | start => exact ⟨le_refl _, fun c own => nomatch own⟩
  | step _ step ih => exact stored_step ih step

theorem reachable_later (reachable : Reachable outside decodes delivery net)
    (steps : ReflTransGen (Step outside decodes delivery) net net') :
    Reachable outside decodes delivery net' := by
  induction steps with
  | refl => exact reachable
  | tail _ step ih => exact .step ih step

theorem stored_later (stored : Stored net n low)
    (steps : ReflTransGen (Step outside decodes delivery) net net') : Stored net' n low := by
  induction steps with
  | refl => exact stored
  | tail _ step ih => exact stored_step ih step

theorem came_later {d : Delivery} (came : Came net n low d)
    (steps : ReflTransGen (Step outside decodes delivery) net net') : Came net' n low d := by
  induction steps with
  | refl => exact came
  | tail _ step ih => exact ih.later step (taken_step step n)

theorem counted_later (reachable : Reachable outside decodes delivery net) (counted : Counted net n number)
    (steps : ReflTransGen (Step outside decodes delivery) net net') : Counted net' n number := by
  induction steps with
  | refl => exact counted
  | tail before step ih => exact counted_step (sound_reachable (reachable_later reachable before)) ih step

/-! ### The main result -/

/-- A client reads the reply that grants its REFRESH: its `request_dump` returns. -/
inductive Returns (outside : Outside) (n : ℕ) (c : Control) : Net → Net → Prop
  | intro (net : Net) (packet : Packet) : net.control n = some c → c.closed = none →
      c.view.pending = some .requestDump → (net.server.wires n)[net.taken n]? = some packet →
      packet.kind = .reply .refresh → packet.code = controlOk →
      (c.receive outside packet).closed = none →
      Returns outside n c net
        { net with
          control := Function.update net.control n (some (c.receive outside packet))
          taken := Function.update net.taken n (net.taken n + 1) }

/-- A client takes its next delivery. -/
inductive Consumes (decodes : List UInt8 → Bool) (n : ℕ) (d : Delivery) : Net → Net → Prop
  | intro (net : Net) (c : Control) (rest : List Delivery) : net.control n = some c → c.closed = none →
      c.view.pending = none → c.queue = d :: rest →
      Consumes decodes n d net
        { net with
          control := Function.update net.control n (some (c.act decodes .messages).1)
          mail := Function.update net.mail n (net.mail n ++ (c.act decodes .messages).2) }

/-- The reply answers the request that waits, and drops the queue. -/
theorem receive_returns {c : Control} {packet : Packet} (waits : c.view.pending = some .requestDump)
    (kind : packet.kind = .reply .refresh) (opened : (c.receive outside packet).closed = none) :
    packet.request = c.view.requestId ∧ (c.receive outside packet).queue = [] := by
  unfold Control.receive at opened ⊢
  cases taken : c.view.receive outside packet with
  | error problem =>
      rw [taken] at opened
      cases opened
  | ok view =>
      rw [kind]
      refine ⟨?_, rfl⟩
      rw [View.receive_reply kind waits (View.receive_fits taken)] at taken
      unfold View.acknowledge at taken
      split_ifs at taken with other
      all_goals exact not_not.mp fun differs => other (Or.inr differs)

/-- What was sent before the reply that is read next. -/
theorem returns_marked (reachable : Reachable outside decodes delivery net) {c : Control} {packet : Packet}
    (own : net.control n = some c) (next : (net.server.wires n)[net.taken n]? = some packet)
    (grants : packet.Grants) : Marked outside decodes delivery net n packet.request
      ((net.server.wires n).take (net.taken n)) := by
  obtain ⟨short, here⟩ := List.getElem?_eq_some_iff.mp next
  have whole : net.server.wires n = (net.server.wires n).take (net.taken n)
      ++ packet :: (net.server.wires n).drop (net.taken n + 1) := by
    conv_lhs => rw [← List.take_append_drop (net.taken n) (net.server.wires n)]
    rw [List.drop_eq_getElem_cons short, here]
  exact ((traced_reachable reachable).vouched n c own).wire _ packet _ whole grants

/-- Behind the reply, the queue begins anew. -/
theorem stored_returns {c : Control} (returns : Returns outside n c net net') :
    Stored net' n (net.taken n + 1) := by
  obtain ⟨packet, own, opened, waits, next, kind, code, still⟩ := returns
  refine ⟨by simp, fun c' own' d member => ?_⟩
  obtain rfl : c.receive outside packet = c' := by simpa using own'
  rw [(receive_returns waits kind still).2] at member
  cases member

/-- What is taken next is numbered after what is taken now. -/
theorem counted_consumes (reachable : Reachable outside decodes delivery net) {d : Delivery}
    (consumes : Consumes decodes n d net net') :
    Reachable outside decodes delivery net' ∧ Counted net' n d.sequence := by
  obtain ⟨c, rest, own, opened, idle, queue⟩ := consumes
  have step : Step outside decodes delivery net _ := .act net n c .messages own
  have numbered := (counted_reachable reachable n).numbered c own
  have sorted := numbered.sorted
  rw [queue, List.pairwise_cons] at sorted
  have takes : (c.act decodes .messages).1 = c.messages decodes := by
    rw [Control.act, if_pos ⟨opened, idle⟩]
  obtain ⟨left, last⟩ := @Control.messages_queue decodes c d rest queue
  have tail : ((c.messages decodes).queue).Sublist rest := by
    rcases left with empty | same
    · rw [empty]
      exact List.nil_sublist _
    · rw [same]
  refine ⟨.step reachable step, Or.inl ?_, fun c' own' => ?_⟩
  · exact (traced_reachable reachable).born n c own
  · obtain rfl : c.messages decodes = c' := by
      rw [← takes]
      simpa using own'
    refine ⟨fun e member => sorted.1 e (tail.subset member), fun e member => ?_, sorted.2.sublist tail, ?_⟩
    · rw [last]
      exact numbered.last e (queue ▸ List.mem_cons_of_mem d (tail.subset member))
    · rw [last]
      exact numbered.last d (queue ▸ List.mem_cons_self)

/-- Whatever the parties do in between: the server granted the REFRESH that returns. All that its client
dropped until then had been sent before, all that it takes later was sent after, and it takes everything
in the order of its numbers. -/
theorem freshDeliveries (reachable : Reachable outside decodes delivery net) :
    (∀ n c after, Returns outside n c net after → ∃ start granted sent,
      Reachable outside decodes delivery start ∧ Admits outside n c.view.requestId sent start granted
        ∧ ReflTransGen (Step outside decodes delivery) granted net
        ∧ sent <+: net.server.wires n ∧ sent.length = net.taken n
        ∧ (∀ earlier c', Reachable outside decodes delivery earlier →
            ReflTransGen (Step outside decodes delivery) earlier net → earlier.control n = some c' →
            ∀ d ∈ c'.queue, ∃ packet ∈ sent, Delivers packet d)
        ∧ ∀ d later later', ReflTransGen (Step outside decodes delivery) after later →
            Consumes decodes n d later later' → ∃ place packet, sent.length < place
              ∧ (later.server.wires n)[place]? = some packet ∧ Delivers packet d)
    ∧ ∀ n first second next later later', Consumes decodes n first net next →
        ReflTransGen (Step outside decodes delivery) next later → Consumes decodes n second later later' →
        first.sequence < second.sequence := by
  constructor
  · intro n c after returns
    have stored := stored_returns returns
    obtain ⟨packet, own, opened, waits, next, kind, code, still⟩ := returns
    obtain ⟨start, granted, known, admits, steps⟩ := returns_marked reachable own next ⟨kind, code⟩
    have length : ((net.server.wires n).take (net.taken n)).length = net.taken n :=
      List.length_take_of_le (le_of_lt (List.getElem?_eq_some_iff.mp next).1)
    refine ⟨start, granted, _, known, (receive_returns waits kind still).1 ▸ admits, steps,
      List.take_prefix _ _, length, ?_, ?_⟩
    · intro earlier c' known' run own' d member
      obtain ⟨place, packet', -, below, sent, carries⟩ :=
        came_later ((stored_reachable known' n).came c' own' d member) run
      refine ⟨packet', ?_, carries⟩
      rw [← List.getElem?_take_of_lt below] at sent
      exact List.mem_of_getElem? sent
    · intro d later later' run consumes
      obtain ⟨c', rest, own', -, -, queue⟩ := consumes
      obtain ⟨place, packet', above, -, sent, carries⟩ :=
        (stored_later stored run).came c' own' d (queue ▸ List.mem_cons_self)
      refine ⟨place, packet', ?_, sent, carries⟩
      rw [length]
      exact above
  · intro n first second next later later' consumes run again
    obtain ⟨reachable', counted⟩ := counted_consumes reachable consumes
    obtain ⟨c, rest, own, -, -, queue⟩ := again
    exact ((counted_later reachable' counted run).numbered c own).later second (queue ▸ List.mem_cons_self)

/-! ### One run -/

theorem meets_report {connection taken : ℕ} {c : Control} {mail : List Frame} {server : Server}
    (meets : Meets connection c mail taken server) {bytes : List UInt8} (source : Source)
    (whole : Delivered (fun _ => true) bytes) :
    Meets connection c mail taken (controlBroadcast prompt bytes source server) := by
  obtain ⟨net, reachable, rfl, own, sent, read⟩ := meets
  exact ⟨_, .step reachable (.report net bytes source whole), rfl, own, sent, read⟩

/-- A report of one register. -/
def reported (register : UInt8) : List UInt8 := [47, register, 0, 0]

theorem reported_whole (register : UInt8) : Delivered (fun _ => true) (reported register) :=
  ⟨List.cons_ne_nil _ _, by simp [reported], rfl⟩

/-- Two reports come to the first client. -/
def reporting : List Action :=
  [.accept, .receive firstSlot (.packet (some ⟨some .hello, 1, controlDesk, 0, [0, 0, 0, 1]⟩)),
    .report (reported 97) .device, .report (reported 98) .device]

/-- Its REFRESH is granted after them. -/
def dumping : Server :=
  receive prompt firstSlot (.packet (some ⟨some .refresh, 2, 0, 1, []⟩)) (run prompt reporting {})

/-- That client, having read the first reports, and its last request if it has sent that. -/
def dumper (read : List Delivery) (number : UInt64) (asked : Bool) : Control where
  view := { welcomed 1 with
    requestId := if asked then 2 else 1
    lastSequence := number
    pending := if asked then some .requestDump else none }
  queue := read
  queueBytes := (controlHeader + 4) * read.length

theorem dumper_meets : Meets 0 (dumper [⟨1, 1, .osc (reported 97)⟩, ⟨1, 2, .osc (reported 98)⟩] 2 true) [] 4
    dumping := by
  have new : isNew prompt {} := by
    unfold isNew
    decide +kernel
  have connected : Meets 0 (Control.connect false 1).1 [⟨some .hello, 1, controlDesk, 0, [0, 0, 0, 1]⟩] 0
      (run prompt (reporting.take 1) {}) :=
    ⟨_, .step .start (.connect _ false 1 new (by decide) (by decide)), rfl, rfl, rfl, rfl⟩
  have greets : Meets 0 _ [] 0 (run prompt (reporting.take 2) {}) :=
    meets_request connected
      (show ((run prompt (reporting.take 1) {}).clients 0).fd = some 0 by decide +kernel)
  have first : Meets 0 _ [] 0 (run prompt (reporting.take 3) {}) :=
    meets_report greets .device (reported_whole 97)
  have hello := meets_read first (by decide) (show ((run prompt (reporting.take 3) {}).wires 0)[0]?
    = some ⟨.reply .hello, 1, controlOk, 1, .hello prompt.hello⟩ by decide +kernel)
  rw [welcomed_prompt] at hello
  have event := meets_read hello rfl (show ((run prompt (reporting.take 3) {}).wires 0)[1]?
    = some ⟨.event, 0, controlOk, 1, .none⟩ by decide +kernel)
  have one := meets_read event (by decide +kernel) (show ((run prompt (reporting.take 3) {}).wires 0)[2]?
    = some ⟨.observation, 0, 1, 1, .osc (reported 97)⟩ by decide +kernel)
  have asks : Meets 0 (dumper [⟨1, 1, .osc (reported 97)⟩] 1 true) [⟨some .refresh, 2, 0, 1, []⟩] 3
      (run prompt (reporting.take 3) {}) := by
    convert meets_act one .requestDump using 1
    · decide +kernel
    · decide +kernel
  have second : Meets 0 _ _ 3 (run prompt reporting {}) :=
    meets_report asks .device (reported_whole 98)
  have two := meets_read second rfl (show ((run prompt reporting {}).wires 0)[3]?
    = some ⟨.observation, 0, 1, 2, .osc (reported 98)⟩ by decide +kernel)
  have asked : Meets 0 (dumper [⟨1, 1, .osc (reported 97)⟩, ⟨1, 2, .osc (reported 98)⟩] 2 true)
      [⟨some .refresh, 2, 0, 1, []⟩] 4 (run prompt reporting {}) := by
    convert two using 1
    decide +kernel
  have known : ((run prompt reporting {}).clients 0).fd = some 0 := by decide +kernel
  unfold dumping
  generalize run prompt reporting {} = server at asked known ⊢
  exact meets_request asked known

/-- From some moment on, a `Control` and the server come so far. -/
def Reached (start : Net) (connection : ℕ) (c : Control) (taken : ℕ) (server : Server) : Prop :=
  ∃ net, ReflTransGen (Step prompt (fun _ => true) (Delivered fun _ => true)) start net
    ∧ net.server = server ∧ net.control connection = some c ∧ net.taken connection = taken

section Reached

variable {start : Net} {connection taken : ℕ} {c : Control} {server : Server}

theorem reached_report (reached : Reached start connection c taken server) {bytes : List UInt8}
    (source : Source) (whole : Delivered (fun _ => true) bytes) :
    Reached start connection c taken (controlBroadcast prompt bytes source server) := by
  obtain ⟨net, steps, rfl, own, read⟩ := reached
  exact ⟨_, steps.tail (.report net bytes source whole), rfl, own, read⟩

theorem reached_read {packet : Packet} (reached : Reached start connection c taken server)
    (reads : c.closed = none) (next : (server.wires connection)[taken]? = some packet) :
    Reached start connection (c.receive prompt packet) (taken + 1) server := by
  obtain ⟨net, steps, rfl, own, rfl⟩ := reached
  exact ⟨_, steps.tail (.read net connection c packet own reads next), rfl,
    Function.update_self _ _ _, Function.update_self _ _ _⟩

theorem reached_returns {before : Net} (returns : Returns prompt connection c before start)
    (same : before.server = server) (read : before.taken connection = taken) {packet : Packet}
    (next : (server.wires connection)[taken]? = some packet) :
    Reached start connection (c.receive prompt packet) (taken + 1) server := by
  subst same read
  obtain ⟨packet', -, -, -, next', -, -, -⟩ := returns
  obtain rfl := Option.some_inj.mp (next.symm.trans next')
  exact ⟨_, .refl, rfl, Function.update_self _ _ _, Function.update_self _ _ _⟩

end Reached

/-- A report from before the request is dropped, and one from after it is taken. -/
theorem firstDump_fresh : ∃ net c after later later', ∃ sent : List Packet,
    Reachable prompt (fun _ => true) (Delivered fun _ => true) net ∧ Returns prompt 0 c net after
      ∧ ReflTransGen (Step prompt (fun _ => true) (Delivered fun _ => true)) after later
      ∧ Consumes (fun _ => true) 0 ⟨1, 3, .osc (reported 99)⟩ later later'
      ∧ c.queue ≠ [] ∧ (∀ d ∈ c.queue, ∃ packet ∈ sent, Delivers packet d)
      ∧ ∃ place packet, sent.length < place ∧ (later.server.wires 0)[place]? = some packet
        ∧ Delivers packet ⟨1, 3, .osc (reported 99)⟩ := by
  obtain ⟨net, reachable, server, own, -, taken⟩ := dumper_meets
  have next : (dumping.wires 0)[4]? = some ⟨.reply .refresh, 2, controlOk, 1, .none⟩ := by
    decide +kernel
  have returns : Returns prompt 0 _ net _ :=
    .intro net _ own rfl rfl (by rw [server, taken, next]) rfl rfl (by decide +kernel)
  obtain ⟨start, granted, sent, -, -, -, -, -, dropped, takes⟩ :=
    (freshDeliveries reachable).1 0 _ _ returns
  -- the report after the request comes behind the window it opened
  have returned := reached_returns returns server taken next
  have window := reached_read (reached_report returned .device (reported_whole 99)) rfl
    (show ((controlBroadcast prompt (reported 99) .device dumping).wires 0)[5]?
      = some ⟨.window, 0, controlBusy, 1, .none⟩ by decide +kernel)
  have third := reached_read window rfl
    (show ((controlBroadcast prompt (reported 99) .device dumping).wires 0)[6]?
      = some ⟨.observation, 0, 1, 3, .osc (reported 99)⟩ by decide +kernel)
  obtain ⟨later, steps, -, own', -⟩ := third
  have consumes : Consumes (fun _ => true) 0 ⟨1, 3, .osc (reported 99)⟩ later _ :=
    .intro later _ [] own' rfl rfl rfl
  exact ⟨net, _, _, later, _, sent, reachable, returns, steps, consumes, by simp [dumper],
    dropped net _ reachable .refl own, takes _ later _ steps consumes⟩

end Net

end OscmixDesk.Backend
