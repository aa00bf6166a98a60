/-
**Every interleaving of the server and its clients.**

A turn of any party keeps the agreement (`fine_step`): a turn of the server is one of `Proof.Agreement`; a
new connection begins with nothing sent; a client that reads moves along the packets it was compared
through; one that asks puts its only request under way. So whenever a connected client holds a lease, the
server agrees, the generations a client sees never decrease, and no client breaks its connection over what
it reads (`leaseAgreement`), until a counter of 64 bits comes round (`generation_decreases`).
-/

import OscmixDesk.Proof.Agreement

namespace OscmixDesk.Backend

namespace Net

variable {outside : Outside} {decodes : List UInt8 → Bool} {net : Net}

/-! ### The invariant -/

/-- The view of a client that still reads. -/
def reading (control : Option Control) : Option View :=
  control.bind fun c => if c.closed = none then some c.view else none

/-- The connections a turn of the server begins with, and the clients that still read. -/
def parties (decodes : List UInt8 → Bool) (net : Net) : Parties where
  fd i := (net.server.clients i).fd
  views n := reading (net.control n)
  taken := net.taken
  stage i := .idle (((net.server.clients i).fd.map net.mail).getD [])
  waiting _ := False
  decodes := decodes

/-- A client that is open, or was closed for a reason of its own, and all it has to decode it can. -/
structure Well (decodes : List UInt8 → Bool) (c : Control) : Prop where
  sound : ∀ problem, c.closed ≠ some (.protocol problem)
  ended : c.closed ≠ none → c.view.lease = none
  begins : c.view.pending = some .begin → c.view.lease = none
  genuine : ∀ delivery ∈ c.queue, ∃ data, delivery.payload = .osc data ∧ decodes data = true

structure Fine (outside : Outside) (decodes : List UInt8 → Bool) (net : Net) : Prop where
  server : Holds outside (net.parties decodes) net.server
  clients : Bounded net.server → ∀ n c, net.control n = some c → Well decodes c
  strangers : ∀ n, net.server.connections ≤ n → net.control n = none ∧ net.taken n = 0

theorem parties_plain (decodes : List UInt8 → Bool) (net : Net) :
    ∀ i frame, (net.parties decodes).stage i ≠ .greeting frame := by
  simp [parties]

theorem parties_stage {i : Slot} {n : ℕ} (known : (net.server.clients i).fd = some n) :
    (net.parties decodes).stage i = .idle (net.mail n) := by
  simp [parties, known]

theorem bounded_before {s t : Server} (grew : Grew s t) (bounded : Bounded t) : Bounded s :=
  ⟨lt_of_le_of_lt (Nat.add_le_add_left grew.changes 1) bounded.1,
    lt_of_le_of_lt grew.broadcasts bounded.2⟩

/-- A client is judged by the stage of its own slot. -/
theorem Caught.staged {d d' : Parties} {s : Server} {i : Slot} {w : View} (caught : Caught d s i w)
    (stage : d'.stage i = d.stage i) (waiting : d'.waiting = d.waiting) : Caught d' s i w where
  generation := caught.generation
  sequence := caught.sequence
  waiting := waiting ▸ caught.waiting
  greeted := stage ▸ caught.greeted
  claim := stage ▸ caught.claim
  fits := stage ▸ caught.fits

/-- Of the parties, only those that are connected and read count. -/
theorem agreed_parties {d d' : Parties} {s : Server} (views : d'.views = d.views)
    (taken : d'.taken = d.taken) (waiting : d'.waiting = d.waiting) (decodes : d'.decodes = d.decodes)
    (fd : ∀ i n, (s.clients i).fd = some n → d'.fd i = some n)
    (stage : ∀ i n v, (s.clients i).fd = some n → d.views n = some v → d'.stage i = d.stage i)
    (agreed : Agreed outside d s) : Agreed outside d' s where
  observation := agreed.observation
  known := fd
  taken := taken ▸ agreed.taken
  wire := by
    rw [views, taken]
    exact agreed.wire
  ordered := agreed.ordered
  genuine := decodes ▸ agreed.genuine
  connected i n known := by
    have here := agreed.connected i n known
    refine ⟨here.ordered, here.bounded, decodes ▸ here.genuine, fun v view => ?_⟩
    have view' : d.views n = some v := views ▸ view
    obtain ⟨w, followed, caught⟩ := here.caught v view'
    exact ⟨w, taken ▸ followed, Caught.staged caught (stage i n v known view') waiting⟩

/-! ### Turns of the server -/

/-- A turn of the server, with the clients as they are. -/
theorem fine_turn {server : Server} (fine : Fine outside decodes net) (grew : Grew net.server server)
    (held : Holds outside (net.parties decodes) server) :
    Fine outside decodes { net with server := server } := by
  refine ⟨⟨held.1, fun bounded => ?_⟩, fun bounded => fine.clients (bounded_before grew bounded),
    fun n new => fine.strangers n (grew.connections.trans new)⟩
  have agreed := held.2 bounded
  refine @agreed_parties outside (net.parties decodes) (parties decodes { net with server := server })
    server rfl rfl rfl rfl (fun i n known => known) (fun i n v known view => ?_) agreed
  have before : (net.server.clients i).fd = some n := agreed.known i n known
  rw [@parties_stage decodes net i n before,
    @parties_stage decodes { net with server := server } i n known]

/-- Any action of the server only adds leases, connections and deliveries. -/
theorem grew_act (fine : Fine outside decodes net) (action : Action) :
    Grew net.server (act outside net.server action) :=
  (follows_act ⟨fine.server.1, Grew.refl _⟩ action).2

/-- A client that asks for nothing yet. -/
structure Fresh (decodes : List UInt8 → Bool) (c : Control) (mail : List Frame) : Prop where
  well : Well decodes c
  generation : c.view.generation = 0
  sequence : c.view.lastSequence = 0
  claim : c.view.claim = none
  fits : (Stage.idle mail).Fits 0 c.view

/-- The stage of a request that is on its way is nothing to the generation. -/
theorem fits_idle {mail : List Frame} {g h : UInt64} {v : View} (fits : (Stage.idle mail).Fits g v) :
    (Stage.idle mail).Fits h v :=
  fits

/-- A connection is taken, and whoever is behind it has read nothing. -/
theorem agreed_accepted {d d' : Parties} {s : Server} {i : Slot} (accepted : ℚ) (sound : Sound s)
    (free : (s.clients i).fd = none) (views : ∀ n ≠ s.connections, d'.views n = d.views n)
    (taken : d'.taken = d.taken)
    (waiting : d'.waiting = fun _ => False) (settled : d.waiting = fun _ => False)
    (decodes : d'.decodes = d.decodes) (fd : ∀ j ≠ i, d'.fd j = d.fd j)
    (here : d'.fd i = some s.connections) (stage : ∀ j ≠ i, d'.stage j = d.stage j)
    (fresh : ∀ v, d'.views s.connections = some v → ∃ mail, d'.stage i = .idle mail
      ∧ v.generation = 0 ∧ v.lastSequence = 0 ∧ v.claim = none ∧ (Stage.idle mail).Fits 0 v)
    (agreed : Agreed outside d s) : Agreed outside d' { s.next.next.modify i fun _ =>
      { fd := some s.connections, accepted := accepted } with connections := s.connections + 1 } := by
  have empty : s.wires s.connections = [] := sound.unborn _ (le_refl _)
  have self : (s.next.next.modify i fun _ =>
      { fd := some s.connections, accepted := accepted }).clients i
        = { fd := some s.connections, accepted := accepted } := by
    simp [Server.modify]
  have other (j : Slot) (apart : j ≠ i) : (s.next.next.modify i fun _ =>
      { fd := some s.connections, accepted := accepted }).clients j = s.clients j := by
    simp [Server.modify, apart]
  refine ⟨agreed.observation, fun j n known => ?_, taken ▸ agreed.taken, fun n v view => ?_,
    agreed.ordered, decodes ▸ agreed.genuine, fun j n known => ?_⟩
  · by_cases same : j = i
    · subst same
      dsimp only at known
      rw [self] at known
      rw [here, ← known]
    · dsimp only at known
      rw [other j same] at known
      rw [fd j same]
      exact agreed.known j n known
  · by_cases same : n = s.connections
    · subst same
      refine ⟨v, ?_⟩
      show v.follow outside ((s.wires s.connections).drop _) = _
      rw [empty, List.drop_nil]
      rfl
    · rw [taken]
      exact agreed.wire n v (views n same ▸ view)
  · dsimp only at known
    by_cases same : j = i
    · subst same
      rw [self] at known
      obtain rfl := Option.some_inj.mp known
      have stream : Server.stream { s.next.next.modify j fun _ =>
          { fd := some s.connections, accepted := accepted } with connections := s.connections + 1 }
          j s.connections = [] := by
        unfold Server.stream
        dsimp only
        rw [self]
        exact (List.append_nil _).trans empty
      refine ⟨by rw [stream]; exact List.Pairwise.nil, by rw [stream]; simp, by rw [stream]; simp,
        fun v view => ⟨v, by rw [stream, List.drop_nil]; rfl, ?_⟩⟩
      obtain ⟨mail, idle, generation, sequence, claim, fits⟩ := fresh v view
      refine ⟨?_, ?_, ?_, ?_, ?_, ?_⟩
      · rw [generation]
        exact UInt64.zero_le
      · rw [sequence]
        exact UInt64.zero_le
      · rw [waiting]
        exact fun none => none.elim
      · dsimp only
        rw [self]
        exact fun _ some' => absurd rfl some'
      · intro _ t claimed
        rw [claim] at claimed
        cases claimed
      · rw [idle]
        exact fits_idle fits
    · rw [other j same] at known
      have apart : n ≠ s.connections := fun at' =>
        absurd (sound.fresh j n known) (by rw [at']; exact lt_irrefl _)
      have connected := agreed.connected j n known
      have moved : Connected outside d' s j n := by
        refine ⟨connected.ordered, connected.bounded, decodes ▸ connected.genuine, fun v view => ?_⟩
        obtain ⟨w, followed, caught⟩ := connected.caught v (views n apart ▸ view)
        exact ⟨w, taken ▸ followed, Caught.staged caught (stage j same) (waiting.trans settled.symm)⟩
      refine moved.congr ?_ ?_ rfl rfl rfl
      · unfold Server.stream
        dsimp only
        rw [other j same]
        rfl
      · dsimp only
        rw [other j same]

/-- A connection that no slot is free for, or none at all. -/
theorem agreed_ignored {d d' : Parties} {s : Server} (connections : ℕ) (sound : Sound s)
    (views : ∀ n ≠ s.connections, d'.views n = d.views n) (taken : d'.taken = d.taken)
    (waiting : d'.waiting = d.waiting) (decodes : d'.decodes = d.decodes) (fd : d'.fd = d.fd)
    (stage : ∀ j, d'.stage j = d.stage j) (agreed : Agreed outside d s) :
    Agreed outside d' { s.next with connections := connections } := by
  refine ⟨agreed.observation, fd ▸ agreed.known, taken ▸ agreed.taken, fun n v view => ?_,
    agreed.ordered, decodes ▸ agreed.genuine, fun j n known => ?_⟩
  · by_cases same : n = s.connections
    · subst same
      refine ⟨v, ?_⟩
      show v.follow outside ((s.wires s.connections).drop _) = _
      rw [sound.unborn _ (le_refl _), List.drop_nil]
      rfl
    · rw [taken]
      exact agreed.wire n v (views n same ▸ view)
  · have apart : n ≠ s.connections := fun at' =>
      absurd (sound.fresh j n known) (by rw [at']; exact lt_irrefl _)
    have connected := agreed.connected j n known
    have moved : Connected outside d' s j n := by
      refine ⟨connected.ordered, connected.bounded, decodes ▸ connected.genuine, fun v view => ?_⟩
      obtain ⟨w, followed, caught⟩ := connected.caught v (views n apart ▸ view)
      exact ⟨w, taken ▸ followed, Caught.staged caught (stage j) waiting⟩
    exact moved.congr rfl rfl rfl rfl rfl

/-- A new connection finds a free slot or is closed at once. -/
theorem acceptClient_cases (outside : Outside) (s : Server) :
    (∃ connections, acceptClient outside s = { s.next with connections := connections })
      ∨ ∃ i accepted, (s.clients i).fd = none ∧ acceptClient outside s = { s.next.next.modify i fun _ =>
        { fd := some s.connections, accepted := accepted } with connections := s.connections + 1 } := by
  unfold acceptClient
  split_ifs
  · exact Or.inl ⟨s.connections, rfl⟩
  · cases found : (List.finRange 16).find? fun i => decide ((s.clients i).fd = none) with
    | none => exact Or.inl ⟨s.connections + 1, rfl⟩
    | some i => exact Or.inr ⟨i, _, by simpa using List.find?_some found, rfl⟩

/-- The stage of a slot that keeps its connection. -/
theorem stage_kept {after : Net} (sound : Sound net.server)
    (old : ∀ n ≠ net.server.connections, after.mail n = net.mail n) {j : Slot}
    (fd : (after.server.clients j).fd = (net.server.clients j).fd) :
    (after.parties decodes).stage j = (net.parties decodes).stage j := by
  unfold parties
  dsimp only
  rw [fd]
  cases known : (net.server.clients j).fd with
  | none => rfl
  | some n => exact congrArg Stage.idle (old n (sound.fresh j n known).ne)

/-- A connection is accepted or not; a `Control` behind it is new. -/
theorem fine_accept {after : Net} (fine : Fine outside decodes net)
    (server : after.server = acceptClient outside net.server) (taken : after.taken = net.taken)
    (old : ∀ n ≠ net.server.connections,
      after.control n = net.control n ∧ after.mail n = net.mail n)
    (first : ∀ c, after.control net.server.connections = some c →
      net.isNew outside ∧ Fresh decodes c (after.mail net.server.connections)) :
    Fine outside decodes after := by
  have grew : Grew net.server after.server := server ▸ grew_act fine .accept
  have sound := fine.server.1
  have views (n : ℕ) (other : n ≠ net.server.connections) :
      (after.parties decodes).views n = (net.parties decodes).views n :=
    congrArg reading (old n other).1
  have mail (n : ℕ) (other : n ≠ net.server.connections) := (old n other).2
  refine ⟨⟨server ▸ (follows_acceptClient ⟨sound, Grew.refl _⟩).1, fun bounded => ?_⟩,
    fun bounded n c known => ?_, fun n new => ?_⟩
  · have agreed := fine.server.2 (bounded_before grew bounded)
    rcases acceptClient_cases outside net.server with ⟨k, same⟩ | ⟨i, accepted, free, same⟩
    · have same : after.server = { net.server.next with connections := k } := server.trans same
      have fd (j : Slot) : (after.server.clients j).fd = (net.server.clients j).fd := by
        rw [same]
        rfl
      rw [same]
      exact agreed_ignored k sound views taken rfl rfl (funext fd)
        (fun j => stage_kept sound mail (fd j)) agreed
    · have same := server.trans same
      have fd (j : Slot) (other : j ≠ i) :
          (after.server.clients j).fd = (net.server.clients j).fd := by
        rw [same]
        simp [Server.modify, Server.next, other]
      have here : (after.server.clients i).fd = some net.server.connections := by
        rw [same]
        simp [Server.modify]
      rw [same]
      refine agreed_accepted accepted sound free views taken rfl rfl rfl fd here
        (fun j other => stage_kept sound mail (fd j other)) (fun v view => ?_) agreed
      obtain ⟨c, known, reads⟩ := Option.bind_eq_some_iff.mp view
      obtain ⟨-, fresh⟩ := first c known
      split_ifs at reads
      obtain rfl := Option.some_inj.mp reads
      exact ⟨_, parties_stage here, fresh.generation, fresh.sequence, fresh.claim, fresh.fits⟩
  · by_cases same : n = net.server.connections
    · subst same
      exact (first c known).2.well
    · exact fine.clients (bounded_before grew bounded) n c ((old n same).1 ▸ known)
  · by_cases same : n = net.server.connections
    · subst same
      refine ⟨?_, taken ▸ (fine.strangers _ (le_refl _)).2⟩
      cases known : after.control net.server.connections with
      | none => rfl
      | some c =>
          have later : (acceptClient outside net.server).connections = _ := (first c known).1
          rw [server, later] at new
          exact absurd new (Nat.not_succ_le_self _)
    · obtain ⟨none, unread⟩ := fine.strangers n (grew.connections.trans new)
      exact ⟨(old n same).1.trans none, taken ▸ unread⟩

/-- A new `Control` has asked for HELLO only. -/
theorem fresh_connect (reader : Bool) (sources : UInt32) :
    Fresh decodes (Control.connect reader sources).1 (Control.connect reader sources).2 := by
  have long : ¬ (controlPayload < (put32 sources).length ∨ (0 : UInt32) = 0xffffffff) := by
    simp [put32, controlPayload]
  unfold Control.connect Control.sendRequest
  dsimp only
  rw [if_neg long]
  refine ⟨⟨by simp, by simp, by simp, by simp⟩, rfl, rfl, rfl, Or.inr ⟨.hello, _, rfl, rfl, rfl, ?_, ?_⟩⟩
  · rfl
  · rfl

/-! ### Requests -/

/-- The server reads a packet of a connection: the only request of the client behind it, if it still
reads, and anything else otherwise. -/
theorem fine_received {after : Net} {index : Slot} {connection : ℕ} {packet : Option Frame}
    (honest : Honest outside decodes) (fine : Fine outside decodes net)
    (known : (net.server.clients index).fd = some connection)
    (server : after.server = receive outside index (.packet packet) net.server)
    (control : after.control = net.control) (taken : after.taken = net.taken)
    (mail : ∀ n ≠ connection, after.mail n = net.mail n)
    (turn : ∀ v, reading (net.control connection) = some v →
      ∃ frame rest, packet = some frame ∧ net.mail connection = frame :: rest
        ∧ after.mail connection = rest) :
    Fine outside decodes after := by
  have grew : Grew net.server after.server := server ▸ grew_act fine (.receive index (.packet packet))
  have sound := fine.server.1
  refine ⟨⟨server ▸ (follows_act ⟨sound, Grew.refl _⟩ (.receive index (.packet packet))).1, fun bounded => ?_⟩,
    fun bounded n c own => ?_, fun n new => ?_⟩
  · have before := bounded_before grew bounded
    have agreed := fine.server.2 before
    have alone (v : View) (reads : reading (net.control connection) = some v) : ∃ frame,
        packet = some frame ∧ net.mail connection = [frame] ∧ after.mail connection = [] := by
      obtain ⟨frame, rest, same, sent, left⟩ := turn v reads
      obtain ⟨w, -, caught⟩ := (agreed.connected index connection known).caught v reads
      have fits := caught.fits
      rw [parties_stage known, sent] at fits
      rcases fits with ⟨-, none⟩ | ⟨call, frame', one, -⟩
      · cases none
      · cases one
        exact ⟨frame, same, sent, left⟩
    have asked (n : ℕ) (v : View) (fd : (net.parties decodes).fd index = some n)
        (reads : (net.parties decodes).views n = some v) : ∃ frame, packet = some frame
          ∧ (net.parties decodes).stage index = .idle [frame] := by
      obtain rfl : connection = n := Option.some_inj.mp (known.symm.trans fd)
      obtain ⟨frame, same, sent, -⟩ := alone v reads
      exact ⟨frame, same, (parties_stage known).trans (congrArg Stage.idle sent)⟩
    have held : Holds outside ((net.parties decodes).at index (.idle [])) after.server :=
      server ▸ holds_receive honest (parties_plain decodes net) rfl asked fine.server
    have views : (after.parties decodes).views = (net.parties decodes).views :=
      funext fun n => congrArg (fun clients : ℕ → Option Control => reading (clients n)) control
    refine @agreed_parties outside ((net.parties decodes).at index (.idle [])) (after.parties decodes)
      after.server views taken rfl rfl (fun i n fd => fd) (fun i n v fd reads => ?_) (held.2 bounded)
    have fd' : (net.server.clients i).fd = some n := (held.2 bounded).known i n fd
    rw [parties_stage fd]
    by_cases same : i = index
    · subst same
      obtain rfl : connection = n := Option.some_inj.mp (known.symm.trans fd')
      obtain ⟨-, -, -, none⟩ := alone v reads
      rw [at_stage, none]
    · have other : n ≠ connection := by
        rintro rfl
        exact same (sound.apart i index n fd' known)
      rw [mail n other, show ((net.parties decodes).at index (.idle [])).stage i
        = (net.parties decodes).stage i by simp [Parties.at, same], parties_stage fd']
  · exact fine.clients (bounded_before grew bounded) n c (control ▸ own)
  · obtain ⟨none, unread⟩ := fine.strangers n (grew.connections.trans new)
    exact ⟨control ▸ none, taken ▸ unread⟩

/-! ### Turns of the clients -/

/-- A client moves, and reads on from where it is as it would have. -/
theorem fine_moved {after : Net} {connection : ℕ} {c : Control} (fine : Fine outside decodes net)
    (server : after.server = net.server) (before : net.control connection = some c)
    (control : ∀ n ≠ connection, after.control n = net.control n)
    (taken : ∀ n ≠ connection, after.taken n = net.taken n)
    (mail : ∀ n ≠ connection, after.mail n = net.mail n)
    (read : Bounded net.server → after.taken connection ≤ (net.server.wires connection).length)
    (well : ∀ c', Bounded net.server → after.control connection = some c' → Well decodes c')
    (moved : ∀ v', Bounded net.server → reading (after.control connection) = some v' →
      ∃ v, reading (net.control connection) = some v ∧ ∀ queue w,
        v.follow outside ((net.server.wires connection ++ queue).drop (net.taken connection)) = .ok w →
        ∃ w', v'.follow outside
            ((net.server.wires connection ++ queue).drop (after.taken connection)) = .ok w'
          ∧ ∀ i, (net.server.clients i).fd = some connection →
            Caught (net.parties decodes) net.server i w → Caught (after.parties decodes) net.server i w') :
    Fine outside decodes after := by
  have sound := fine.server.1
  have fd (i : Slot) : (after.parties decodes).fd i = (net.server.clients i).fd := by
    unfold parties
    rw [server]
  refine ⟨server ▸ ⟨sound, fun bounded => ?_⟩, fun bounded n c' own => ?_, fun n new => ?_⟩
  · have agreed := fine.server.2 bounded
    refine ⟨agreed.observation, fun i n known => (fd i).trans known, fun n => ?_, fun n v' view => ?_,
      agreed.ordered, agreed.genuine, fun i n known => ?_⟩
    · by_cases same : n = connection
      · subst same
        exact read bounded
      · exact (taken n same).trans_le (agreed.taken n)
    · by_cases same : n = connection
      · subst same
        obtain ⟨v, reads, follows⟩ := moved v' bounded view
        obtain ⟨w, followed⟩ := agreed.wire n v reads
        rw [← List.append_nil (net.server.wires n)] at followed
        obtain ⟨w', followed', -⟩ := follows [] w followed
        rw [List.append_nil] at followed'
        exact ⟨w', followed'⟩
      · have view' : (net.parties decodes).views n = some v' :=
          (congrArg reading (control n same)).symm.trans view
        obtain ⟨w, followed⟩ := agreed.wire n v' view'
        exact ⟨w, by rw [show (after.parties decodes).taken n = _ from taken n same]; exact followed⟩
    · have here := agreed.connected i n known
      refine ⟨here.ordered, here.bounded, here.genuine, fun v' view => ?_⟩
      by_cases same : n = connection
      · subst same
        obtain ⟨v, reads, follows⟩ := moved v' bounded view
        obtain ⟨w, followed, caught⟩ := here.caught v reads
        obtain ⟨w', followed', caught'⟩ := follows _ w followed
        exact ⟨w', followed', caught' i known caught⟩
      · have view' : (net.parties decodes).views n = some v' :=
          (congrArg reading (control n same)).symm.trans view
        obtain ⟨w, followed, caught⟩ := here.caught v' view'
        refine ⟨w, by rw [show (after.parties decodes).taken n = _ from taken n same]; exact followed,
          Caught.staged caught ?_ rfl⟩
        rw [parties_stage known, @parties_stage decodes after i n (server ▸ known), mail n same]
  · rw [server] at bounded
    by_cases same : n = connection
    · subst same
      exact well c' bounded own
    · exact fine.clients bounded n c' (control n same ▸ own)
  · rw [server] at new
    obtain ⟨none, unread⟩ := fine.strangers n new
    have other : n ≠ connection := by
      rintro rfl
      rw [before] at none
      cases none
    exact ⟨(control n other).trans none, (taken n other).trans unread⟩

/-- The packet that is read is the next of what is sent. -/
theorem drop_next {sent : List Packet} {n : ℕ} {packet : Packet} (next : sent[n]? = some packet)
    (queue : List Packet) : (sent ++ queue).drop n = packet :: (sent ++ queue).drop (n + 1) := by
  obtain ⟨short, same⟩ := List.getElem?_eq_some_iff.mp next
  have long : n < (sent ++ queue).length := by
    rw [List.length_append]
    exact Nat.lt_add_right _ short
  rw [List.drop_eq_getElem_cons long, List.getElem_append_left short, same]

/-- A packet that is taken moves the view on, unless the queue is full. -/
theorem receive_taken {c : Control} {packet : Packet} {v : View}
    (taken : c.view.receive outside packet = .ok v) :
    c.receive outside packet = Control.close .overflow { c with view := v }
      ∨ (c.receive outside packet).view = v ∧ (c.receive outside packet).closed = c.closed
        ∧ ∀ delivery ∈ (c.receive outside packet).queue, delivery ∈ c.queue
          ∨ packet.kind = .observation ∧ delivery.payload = packet.payload := by
  unfold Control.receive
  rw [taken]
  cases kind : packet.kind with
  | observation =>
      dsimp only
      unfold Control.observe
      split_ifs
      · exact Or.inl rfl
      · refine Or.inr ⟨rfl, rfl, fun delivery member => ?_⟩
        rcases List.mem_append.mp member with old | new
        · exact Or.inl old
        · exact Or.inr ⟨rfl, by rw [List.mem_singleton.mp new]⟩
  | reply request =>
      refine Or.inr ?_
      cases request <;> refine ⟨rfl, rfl, fun delivery member => ?_⟩
      all_goals first
        | exact Or.inl member
        | cases member
  | event => exact Or.inr ⟨rfl, rfl, fun delivery member => Or.inl member⟩
  | window => exact Or.inr ⟨rfl, rfl, fun delivery member => Or.inl member⟩

/-- A client that is closed for a reason of its own. -/
theorem well_closed {c : Control} {reason : Closing} (own : ∀ problem, reason ≠ .protocol problem) :
    Well decodes (c.close reason) where
  sound problem closed := own problem (Option.some_inj.mp closed)
  ended _ := rfl
  begins _ := rfl
  genuine _ member := by cases member

theorem fine_read {after : Net} {connection : ℕ} {c : Control} {packet : Packet}
    (fine : Fine outside decodes net) (before : net.control connection = some c)
    (reads : c.closed = none)
    (next : (net.server.wires connection)[net.taken connection]? = some packet)
    (server : after.server = net.server)
    (control : after.control = Function.update net.control connection (some (c.receive outside packet)))
    (taken : after.taken = Function.update net.taken connection (net.taken connection + 1))
    (mail : after.mail = net.mail) : Fine outside decodes after := by
  have view : reading (net.control connection) = some c.view := by simp [reading, before, reads]
  have here : after.control connection = some (c.receive outside packet) := by simp [control]
  have moved : after.taken connection = net.taken connection + 1 := by simp [taken]
  have accepted (bounded : Bounded net.server) : ∃ v, c.view.receive outside packet = .ok v := by
    obtain ⟨w, followed⟩ := (fine.server.2 bounded).wire connection c.view view
    rw [← List.append_nil (net.server.wires connection)] at followed
    rw [show (net.parties decodes).taken connection = net.taken connection from rfl,
      drop_next next] at followed
    obtain ⟨v, first, -⟩ := View.follow_cons.mp followed
    exact ⟨v, first⟩
  refine fine_moved fine server before (fun n other => by simp [control, other])
    (fun n other => by simp [taken, other]) (fun n _ => by rw [mail]) (fun _ => ?_) (fun c' bounded own => ?_)
    (fun v' bounded own => ?_)
  · rw [moved]
    exact (List.getElem?_eq_some_iff.mp next).1
  · obtain rfl := Option.some_inj.mp (here.symm.trans own)
    have well := fine.clients bounded connection c before
    obtain ⟨v, first⟩ := accepted bounded
    rcases receive_taken first with full | ⟨same, closed, queue⟩
    · rw [full]
      exact well_closed fun _ => by simp
    · refine ⟨by rw [closed]; exact well.sound, fun ended => absurd (closed.trans reads) ended,
        same ▸ (View.receive_held well.begins first).1, fun delivery member => ?_⟩
      rcases queue delivery member with old | ⟨kind, payload⟩
      · exact well.genuine delivery old
      · obtain ⟨data, osc, decoded⟩ := (fine.server.2 bounded).genuine connection packet
          (List.mem_of_getElem? next) kind
        exact ⟨data, payload.trans osc, decoded⟩
  · obtain ⟨v, first⟩ := accepted bounded
    refine ⟨c.view, view, fun queue w followed => ?_⟩
    rw [drop_next next] at followed
    obtain ⟨middle, first', later⟩ := View.follow_cons.mp followed
    have same : v' = middle := by
      rw [here] at own
      obtain ⟨c', is, open'⟩ := Option.bind_eq_some_iff.mp own
      obtain rfl := Option.some_inj.mp is
      split_ifs at open' with still
      obtain rfl := Option.some_inj.mp open'
      rcases receive_taken first' with full | ⟨same, -, -⟩
      · rw [full] at still
        cases still
      · exact same
    refine ⟨w, by rw [moved, same]; exact later, fun i known caught => Caught.staged caught ?_ rfl⟩
    rw [parties_stage known, @parties_stage decodes after i connection (server ▸ known), mail]

/-- The view of a client that asks. -/
def asking (v : View) (call : Call) (lease : Option UInt64) : View :=
  { v with requestId := v.requestId + 1, pending := some call, lease := lease }

/-- What a deed comes to: nothing is asked, the connection ends, or one request is sent. -/
inductive Done (c : Control) : Control × List Frame → Prop
  | rests (c' : Control) : c'.view = c.view → c'.closed = c.closed →
      (∀ delivery ∈ c'.queue, delivery ∈ c.queue) → Done c (c', [])
  | closes (b : Control) (reason : Closing) : (∀ problem, reason ≠ .protocol problem) →
      Done c (b.close reason, [])
  | asks (call : Call) (lease : Option UInt64) (frame : Frame) : c.view.pending = none →
      lease = c.view.lease ∨ lease = none → (asking c.view call lease).claim = c.view.lease →
      Awaits (asking c.view call lease) call frame →
      Done c ({ c with view := asking c.view call lease }, [frame])

theorem done_nothing (c : Control) : Done c (c, []) :=
  .rests c rfl rfl fun _ member => member

/-- A request is sent, or the connection has reached its limits. -/
theorem done_sent {c : Control} {call : Call} {code : UInt32} {data : List UInt8} {token : UInt64}
    {lease : Option UInt64} (idle : c.view.pending = none)
    (released : lease = c.view.lease ∨ lease = none)
    (claim : (asking c.view call lease).claim = c.view.lease)
    (told : call.Told (asking c.view call lease) ⟨some call.kind, c.view.requestId + 1, code, token, data⟩) :
    Done c (Control.sendRequest call code data token
      { c with view := { c.view with lease := lease } }) := by
  unfold Control.sendRequest
  dsimp only
  by_cases full : controlPayload < data.length ∨ c.view.requestId = 0xffffffff
  · rw [if_pos full]
    exact .closes _ .limits fun _ => by simp
  · rw [if_neg full]
    exact .asks call lease _ idle released claim ⟨rfl, rfl, rfl, told⟩

theorem act_done {c : Control} (well : Well decodes c) (reads : c.closed = none) (deed : Deed) :
    Done c (c.act decodes deed) := by
  have owned {next : UInt64 → Control × List Frame} (sent : ∀ token, c.view.lease = some token →
      c.view.pending = none → Done c (next token)) : Done c (Control.act.ifOwner c next) := by
    unfold Control.act.ifOwner
    cases lease : c.view.lease with
    | none => exact done_nothing c
    | some token =>
        dsimp only
        by_cases ready : c.closed = none ∧ c.view.pending = none
        · rw [if_pos ready]
          exact sent token lease ready.2
        · rw [if_neg ready]
          exact done_nothing c
  unfold Control.act
  cases deed with
  | leave =>
      dsimp only
      rw [if_pos reads]
      exact .closes c .left fun _ => by simp
  | messages =>
      dsimp only
      split_ifs
      · unfold Control.messages
        cases queue : c.queue with
        | nil => exact done_nothing c
        | cons delivery rest =>
            obtain ⟨data, osc, decoded⟩ := well.genuine delivery (queue ▸ List.mem_cons_self)
            dsimp only
            rw [osc]
            dsimp only
            rw [if_neg (by simp [decoded])]
            exact .rests _ rfl rfl fun _ member => queue ▸ List.mem_cons_of_mem _ member
      · exact done_nothing c
  | begin =>
      dsimp only
      split_ifs with ready
      · exact done_sent ready.2.1 (Or.inl rfl) rfl ready.2.2
      · exact done_nothing c
  | heartbeat =>
      exact owned fun token lease idle => done_sent idle (Or.inl rfl) rfl lease
  | finish =>
      exact owned fun token lease idle => done_sent idle (Or.inr rfl) lease.symm ⟨rfl, rfl⟩
  | write data =>
      exact owned fun token lease idle => done_sent idle (Or.inl rfl) rfl lease
  | requestDump =>
      dsimp only
      split_ifs with ready
      · exact done_sent ready.2 (Or.inl rfl) rfl trivial
      · exact done_nothing c

/-- A closed connection does nothing more. -/
theorem act_closed {c : Control} (ended : c.closed ≠ none) (deed : Deed) :
    c.act decodes deed = (c, []) := by
  have owned (next : UInt64 → Control × List Frame) : Control.act.ifOwner c next = (c, []) := by
    unfold Control.act.ifOwner
    cases c.view.lease with
    | none => rfl
    | some token => exact if_neg fun ready => ended ready.1
  unfold Control.act
  cases deed with
  | leave => exact if_neg ended
  | messages => exact if_neg fun ready => ended ready.1
  | begin => exact if_neg fun ready => ended ready.1
  | heartbeat => exact owned _
  | finish => exact owned _
  | write data => exact owned _
  | requestDump => exact if_neg fun ready => ended ready.1

/-- A request that a client sends is its only one. -/
theorem caught_asking {after : Net} {i : Slot} {n : ℕ} {w : View} {call : Call} {lease : Option UInt64}
    {frame : Frame} {v : View} (known : (net.server.clients i).fd = some n)
    (known' : (after.server.clients i).fd = some n) (mail : after.mail n = net.mail n ++ [frame])
    (idle : w.pending = none) (same : w.lease = v.lease) (sources : w.sources = v.sources)
    (claim : (asking v call lease).claim = v.lease)
    (awaits : Awaits (asking v call lease) call frame)
    (caught : Caught (net.parties decodes) net.server i w) :
    Caught (after.parties decodes) net.server i
      { w with pending := some call, requestId := v.requestId + 1, lease := lease } where
  generation := caught.generation
  sequence := caught.sequence
  waiting := caught.waiting
  greeted _ := caught.greeted (parties_plain decodes net i)
  claim _ t claimed := by
    have claims : ({ w with pending := some call, requestId := v.requestId + 1, lease := lease }
        : View).claim = v.lease := by
      rw [← claim]
      rfl
    exact caught.held (same.trans (claims.symm.trans claimed))
  fits := by
    have fits := caught.fits
    rw [parties_stage known] at fits
    rw [parties_stage known', mail]
    rcases fits with ⟨-, empty⟩ | ⟨other, _, -, asked⟩
    · rw [empty]
      exact Or.inr ⟨call, frame, rfl, awaits.congr rfl rfl rfl sources⟩
    · rw [asked.pending] at idle
      cases idle

theorem well_done {c : Control} {result : Control × List Frame} (well : Well decodes c)
    (reads : c.closed = none) (done : Done c result) : Well decodes result.1 := by
  cases done with
  | rests c' same closed queue =>
      refine ⟨by rw [closed]; exact well.sound, fun ended => absurd (closed.trans reads) ended,
        same ▸ well.begins, fun delivery member => well.genuine delivery (queue delivery member)⟩
  | closes b reason own => exact well_closed own
  | asks call lease frame idle released claim awaits =>
      refine ⟨well.sound, fun ended => absurd reads ended, fun begins => ?_, well.genuine⟩
      obtain rfl := Option.some_inj.mp (awaits.pending.symm.trans begins)
      exact awaits.told

theorem fine_act {after : Net} {connection : ℕ} {c : Control} {deed : Deed}
    (fine : Fine outside decodes net) (before : net.control connection = some c)
    (server : after.server = net.server)
    (control : after.control = Function.update net.control connection (some (c.act decodes deed).1))
    (taken : after.taken = net.taken)
    (mail : after.mail = Function.update net.mail connection
      (net.mail connection ++ (c.act decodes deed).2)) : Fine outside decodes after := by
  have here : after.control connection = some (c.act decodes deed).1 := by simp [control]
  have sent : after.mail connection = net.mail connection ++ (c.act decodes deed).2 := by simp [mail]
  refine fine_moved fine server before (fun n other => by simp [control, other])
    (fun n _ => by rw [taken]) (fun n other => by simp [mail, other])
    (fun bounded => by rw [taken]; exact (fine.server.2 bounded).taken connection)
    (fun c' bounded own => ?_) (fun v' bounded own => ?_)
  · obtain rfl := Option.some_inj.mp (here.symm.trans own)
    have well := fine.clients bounded connection c before
    by_cases reads : c.closed = none
    · exact well_done well reads (act_done well reads deed)
    · rwa [act_closed reads]
  · have reads : c.closed = none := by
      by_contra ended
      rw [here, act_closed ended] at own
      simp [reading, ended] at own
    have view : reading (net.control connection) = some c.view := by simp [reading, before, reads]
    have done := act_done (fine.clients bounded connection c before) reads deed
    rw [here] at own
    refine ⟨c.view, view, fun queue w followed => ?_⟩
    rw [taken]
    generalize c.act decodes deed = result at done own sent
    cases done with
    | rests c' same closed _ =>
        have same' : v' = c.view := by
          simp [reading, closed, reads] at own
          exact own.symm.trans same
        refine ⟨w, by rw [same']; exact followed, fun i known caught => Caught.staged caught ?_ rfl⟩
        rw [parties_stage known, @parties_stage decodes after i connection (server ▸ known), sent,
          List.append_nil]
    | closes b reason _ => simp [reading, Control.close] at own
    | asks call lease frame idle released claim awaits =>
        have same' : v' = asking c.view call lease := by
          simp [reading, reads] at own
          exact own.symm
        obtain ⟨idle', lease', number', sources', commuted⟩ :=
          @View.follow_asking outside c.view w _ call (c.view.requestId + 1) lease idle released followed
        exact ⟨_, by rw [same']; exact commuted, fun i known caught =>
          caught_asking known (server ▸ known) sent idle' lease' sources' claim awaits caught⟩

/-! ### Runs -/

theorem fine_start : Fine outside decodes {} where
  server := by
    refine ⟨sound_start, fun _ => ⟨rfl, fun i n known => ?_, fun n => le_refl _, fun n v view => ?_,
      fun n => List.Pairwise.nil, fun n packet member => ?_, fun i n known => ?_⟩⟩
    · cases known
    · cases view
    · cases member
    · cases known
  clients _ n c own := by cases own
  strangers n _ := ⟨rfl, rfl⟩

/-- Whoever moves, client and server agree. -/
theorem fine_step {after : Net} (honest : Honest outside decodes) (fine : Fine outside decodes net)
    (step : Step outside decodes (Delivered decodes) net after) : Fine outside decodes after := by
  have serves := @serves_holds outside (net.parties decodes) honest (parties_plain decodes net) rfl
  have stable := serves.toStable
  cases step with
  | tick => exact fine_turn fine (grew_act fine .tick) (serves.controlTick_keeps fine.server)
  | hangUp index =>
      exact fine_turn fine (grew_act fine (.hangUp index)) (disconnect_keeps stable _ index fine.server)
  | writable index =>
      exact fine_turn fine (grew_act fine (.writable index))
        (flush_keeps stable (disconnect_keeps stable) index fine.server)
  | ended index =>
      refine fine_turn fine (grew_act fine (.receive index .ended)) ?_
      unfold receive
      by_cases gone : (net.server.clients index).fd = none
      · rw [if_pos gone]
        exact fine.server
      · rw [if_neg gone]
        exact disconnect_keeps stable _ index fine.server
  | report bytes source delivered =>
      exact fine_turn fine (grew_act fine (.report bytes source))
        (holds_broadcast delivered (parties_plain decodes net) rfl source fine.server)
  | other =>
      refine fine_accept fine rfl rfl (fun n _ => ⟨rfl, rfl⟩) fun c own => ?_
      rw [(fine.strangers _ (le_refl _)).1] at own
      cases own
  | foreign index connection packet known nobody =>
      refine fine_received honest fine known rfl rfl rfl (fun _ _ => rfl) fun v reads => ?_
      rw [nobody] at reads
      cases reads
  | connect reader sources new some' known =>
      refine fine_accept fine rfl rfl (fun n other => by simp [other]) fun c own => ⟨new, ?_⟩
      simp only [Function.update_self] at own ⊢
      obtain rfl := Option.some_inj.mp own
      exact fresh_connect reader sources
  | request index connection c frame rest known own sent =>
      exact fine_received honest fine known rfl rfl rfl (fun n other => by simp [other])
        fun v reads => ⟨frame, rest, rfl, sent, by simp⟩
  | read connection c packet own reads next => exact fine_read fine own reads next rfl rfl rfl rfl
  | act connection c deed own => exact fine_act fine own rfl rfl rfl rfl

theorem fine_reachable (honest : Honest outside decodes)
    (reachable : Reachable outside decodes (Delivered decodes) net) : Fine outside decodes net := by
  induction reachable with
  | start => exact fine_start
  | step _ step ih => exact fine_step honest ih step

/-- However the parties take turns: a connected client that holds a lease is the owner, under the
generation of the moment; the generations a client reads never decrease; no client breaks its connection
over what it reads. -/
theorem leaseAgreement (honest : Honest outside decodes)
    (reachable : Reachable outside decodes (Delivered decodes) net) (bounded : Bounded net.server) :
    (∀ i n c token, (net.server.clients i).fd = some n → net.control n = some c →
        c.view.lease = some token → net.server.owner = some i ∧ net.server.generation = token)
      ∧ (∀ n, (((net.server.wires n).take (net.taken n)).filterMap Packet.stamp).Pairwise (· ≤ ·))
      ∧ ∀ n c problem, net.control n = some c → c.closed ≠ some (.protocol problem) := by
  have fine := fine_reachable honest reachable
  have agreed := fine.server.2 bounded
  refine ⟨fun i n c token known own lease => ?_, fun n => ?_, fun n c problem own =>
    (fine.clients bounded n c own).sound problem⟩
  · have well := fine.clients bounded n c own
    have reads : c.closed = none := by
      by_contra ended
      have none := well.ended ended
      rw [lease] at none
      cases none
    obtain ⟨w, followed, caught⟩ :=
      (agreed.connected i n known).caught c.view (by simp [parties, reading, own, reads])
    exact caught.held (View.follow_held well.begins lease followed)
  · exact (agreed.ordered n).sublist ((List.take_sublist _ _).filterMap _)

/-! ### A generation that comes round -/

/-- Without a `Control`, whatever the server does is a run of the net. -/
theorem alone_act {delivery : List UInt8 → Prop} (reachable : Reachable outside decodes delivery net)
    (alone : net.control = fun _ => none) {action : Action}
    (quiet : ∀ bytes source, action ≠ .report bytes source) :
    Reachable outside decodes delivery { net with server := act outside net.server action } := by
  cases action with
  | tick => exact .step reachable (.tick net)
  | accept => exact .step reachable (.other net)
  | hangUp index => exact .step reachable (.hangUp net index)
  | writable index => exact .step reachable (.writable net index)
  | report bytes source => exact absurd rfl (quiet bytes source)
  | receive index received =>
      cases received with
      | ended => exact .step reachable (.ended net index)
      | nothing =>
          have same : act outside net.server (.receive index .nothing) = net.server := ite_self _
          rwa [same]
      | packet packet =>
          cases known : (net.server.clients index).fd with
          | none =>
              have same : act outside net.server (.receive index (.packet packet)) = net.server :=
                if_pos known
              rwa [same]
          | some connection =>
              exact .step reachable (.foreign net index connection packet known (by rw [alone]))

theorem alone_run {delivery : List UInt8 → Prop} (reachable : Reachable outside decodes delivery net)
    (alone : net.control = fun _ => none) {actions : List Action}
    (quiet : ∀ action ∈ actions, ∀ bytes source, action ≠ .report bytes source) :
    Reachable outside decodes delivery { net with server := run outside actions net.server } := by
  induction actions generalizing net with
  | nil => exact reachable
  | cons action rest ih =>
      have first := alone_act reachable alone (quiet action List.mem_cons_self)
      exact ih first alone fun later member => quiet later (List.mem_cons_of_mem action member)

/-- A `Control` and the server meet so. -/
def Meets (connection : ℕ) (c : Control) (mail : List Frame) (taken : ℕ) (server : Server) : Prop :=
  ∃ net, Reachable prompt (fun _ => true) (Delivered fun _ => true) net ∧ net.server = server
    ∧ net.control connection = some c ∧ net.mail connection = mail ∧ net.taken connection = taken

section Meets

variable {connection taken : ℕ} {c : Control} {mail : List Frame} {server : Server}

theorem meets_request {index : Slot} {frame : Frame}
    (meets : Meets connection c (frame :: mail) taken server)
    (known : (server.clients index).fd = some connection) :
    Meets connection c mail taken (receive prompt index (.packet (some frame)) server) := by
  obtain ⟨net, reachable, rfl, own, sent, read⟩ := meets
  exact ⟨_, .step reachable (.request net index connection c frame mail known own sent), rfl, own,
    Function.update_self _ _ _, read⟩

theorem meets_read {packet : Packet} (meets : Meets connection c mail taken server)
    (reads : c.closed = none) (next : (server.wires connection)[taken]? = some packet) :
    Meets connection (c.receive prompt packet) mail (taken + 1) server := by
  obtain ⟨net, reachable, rfl, own, sent, rfl⟩ := meets
  exact ⟨_, .step reachable (.read net connection c packet own reads next), rfl,
    Function.update_self _ _ _, sent, Function.update_self _ _ _⟩

theorem meets_act (meets : Meets connection c mail taken server) (deed : Deed) :
    Meets connection (c.act (fun _ => true) deed).1 (mail ++ (c.act (fun _ => true) deed).2) taken
      server := by
  obtain ⟨net, reachable, rfl, own, rfl, read⟩ := meets
  exact ⟨_, .step reachable (.act net connection c deed own), rfl, Function.update_self _ _ _,
    Function.update_self _ _ _, read⟩

end Meets

/-- The view of a client of `prompt` that has read the reply to its HELLO. -/
def welcomed (generation : UInt64) : View where
  sources := 1
  requestId := 1
  generation := generation
  epoch := prompt.epoch

theorem prompt_text : (ByteArray.mk prompt.deviceName.toArray).validateUTF8 = true := by
  decide +kernel

theorem prompt_honest : Honest prompt fun _ => true where
  command _ _ _ member := by cases member
  epoch := by decide
  terminated := by decide
  text := prompt_text

/-- The view that waits for the lease. -/
def beginning (generation : UInt64) : View :=
  { welcomed generation with requestId := 2, pending := some .begin }

theorem welcomed_prompt (generation : UInt64) : (Control.connect false 1).1.receive prompt
    ⟨.reply .hello, 1, controlOk, generation, .hello prompt.hello⟩ = { view := welcomed generation } := by
  have awaits : Awaits (Control.connect false 1).1.view .hello
      ⟨some .hello, 1, controlDesk, 0, put32 1⟩ := ⟨by decide, rfl, by decide,
    show put32 1 = put32 (Control.connect false 1).1.view.sources by decide⟩
  have taken := @receive_hello prompt (parties (fun _ => true) {}) _ prompt_honest _ awaits generation
    (by decide)
  unfold Control.receive
  rw [show (1 : UInt32) = (⟨some .hello, 1, controlDesk, 0, put32 1⟩ : Frame).request from rfl, taken]
  rfl

theorem beginning_event (generation : UInt64) :
    ({ view := beginning generation } : Control).receive prompt
      ⟨.event, 0, controlOk, generation, .none⟩ = { view := beginning generation } := by
  unfold Control.receive
  have later : (beginning generation).generation ≤ generation := UInt64.le_refl _
  rw [View.receive_leaseEvent (Or.inl rfl) later fun t lease => by cases lease]
  rfl

theorem beginning_reply (generation sequence : UInt64) :
    ({ view := beginning generation } : Control).receive prompt
      ⟨.reply .begin, 2, controlOk, sequence, .none⟩
      = { view := { welcomed generation with
          requestId := 2, lease := some sequence, generation := sequence } } :=
  rfl

/-- A `Control` connects to a deserted server, takes the lease and reads of it. -/
theorem leased_prompt {s : Server} {leases : ℕ} (deserted : Deserted s leases) (sound : Sound s)
    (reachable : Reachable prompt (fun _ => true) (Delivered fun _ => true) { server := s }) :
    ∃ c server, Meets s.connections c [] 3 server
      ∧ c.view.lease = some (s.generation + 1)
      ∧ (server.clients 0).fd = some s.connections
      ∧ server.changes = s.changes + 1 ∧ server.broadcasts = s.broadcasts
      ∧ ((server.wires s.connections).take 3).filterMap Packet.stamp
        = [s.generation, s.generation, s.generation + 1] := by
  obtain ⟨⟨client, base, rfl, fd⟩, owner, window, -, -⟩ := deserted
  obtain ⟨base', same, calm, wires⟩ :=
    @greeting_prompt client base controlDesk (Or.inl rfl) fd owner window
  have settled (request : UInt32) : Settled
      { fd := some base.connections, role := controlDesk, sources := 1, request := request }
      base.connections := ⟨rfl, rfl, rfl, rfl, rfl⟩
  have free : base'.owner = none := calm.owner.trans owner
  obtain ⟨begun, begins, held, changes, -, -, broadcasts, sent⟩ :=
    @begin_prompt _ _ base'.next (settled 2) rfl free 2
  have empty : base.wires base.connections = [] := sound.unborn _ (le_refl _)
  rw [empty, List.nil_append] at wires
  have wires' : begun.wires base.connections = greeted base
      ++ [⟨.reply .begin, 2, controlOk, base.generation + 1, .none⟩,
        ⟨.event, 0, controlBusy, base.generation + 1, .none⟩] := by
    rw [sent, show base'.next.wires = base'.wires from rfl, wires,
      show base'.next.generation = base.generation from calm.generation]
  have event : base.leaseEvent = ⟨.event, 0, controlOk, base.generation, .none⟩ := by
    unfold Server.leaseEvent
    rw [if_pos (show base.owner = none from owner)]
  have new : isNew prompt { server := lone client base } := by
    unfold isNew
    rw [accept_prompt fd]
    rfl
  have connected : Meets base.connections (Control.connect false 1).1 (Control.connect false 1).2 0
      (acceptClient prompt (lone client base)) :=
    ⟨_, .step reachable (.connect _ false 1 new (by decide) (by decide)), rfl,
      Function.update_self _ _ _, Function.update_self _ _ _, rfl⟩
  have greets : Meets base.connections (Control.connect false 1).1 [] 0
      (lone { fd := some base.connections, role := controlDesk, sources := 1, request := 1 } base') := by
    rw [← same]
    have sent : Meets base.connections _ [⟨some .hello, 1, controlDesk, 0, [0, 0, 0, 1]⟩] 0 _ :=
      connected
    refine meets_request sent ?_
    rw [act, accept_prompt fd]
    rfl
  have welcome := meets_read greets (by decide)
    (show (base'.wires base.connections)[0]? = some _ by rw [wires]; rfl)
  rw [welcomed_prompt] at welcome
  have asks : Meets base.connections { view := beginning base.generation }
      [⟨some .begin, 2, 0, base.generation, []⟩] 1 _ := meets_act welcome .begin
  have known : ((lone { fd := some base.connections, role := controlDesk, sources := 1, request := 1 }
      base').clients 0).fd = some base.connections := rfl
  have served := meets_request asks known
  rw [receive_prompt (settled 1) (Or.inl free) (calm.refreshing.trans window) _ (by simp)
    ⟨rfl, Or.inr rfl⟩ (by simp [controlDesk]) ⟨rfl, rfl⟩] at served
  have leased : Meets base.connections { view := beginning base.generation } [] 1
      (lone { fd := some base.connections, role := controlDesk, sources := 1, request := 2 } begun) :=
    begins ▸ served
  have early := meets_read leased rfl
    (show (begun.wires base.connections)[1]? = some ⟨.event, 0, controlOk, base.generation, .none⟩ by
      rw [wires', greeted, event]
      rfl)
  rw [beginning_event] at early
  have last := meets_read early rfl (show (begun.wires base.connections)[2]?
      = some ⟨.reply .begin, 2, controlOk, base.generation + 1, .none⟩ by
    rw [wires', greeted]
    rfl)
  rw [beginning_reply] at last
  refine ⟨_, _, last, rfl, rfl, ?_, ?_, ?_⟩
  · show begun.changes = base.changes + 1
    rw [changes, show base'.next.changes = base'.changes from rfl, calm.changes]
  · show begun.broadcasts = base.broadcasts
    rw [broadcasts, show base'.next.broadcasts = base'.broadcasts from rfl, calm.broadcasts]
  · show ((begun.wires base.connections).take 3).filterMap Packet.stamp = _
    rw [wires', greeted, event]
    rfl

/-- The first lease of a server, as its client and the server know it. -/
theorem firstLease_agrees : ∃ net c,
    Reachable prompt (fun _ => true) (Delivered fun _ => true) net ∧ net.control 0 = some c
      ∧ c.view.lease = some 2 ∧ net.server.owner = some 0 ∧ net.server.generation = 2 := by
  obtain ⟨c, server, ⟨net, reachable, rfl, own, -, -⟩, lease, known, changes, broadcasts, -⟩ :=
    @leased_prompt {} 0 (leaseCycles_prompt 0) sound_start .start
  have bounded : Bounded net.server := by
    unfold Bounded
    rw [changes, broadcasts]
    decide
  exact ⟨net, c, reachable, own, lease,
    (leaseAgreement prompt_honest reachable bounded).1 0 0 c 2 known own lease⟩

/-- After `2^63 - 1` leases the next generation is 0. -/
theorem generation_decreases : ∃ net n c,
    Reachable prompt (fun _ => true) (Delivered fun _ => true) net ∧ net.control n = some c
      ∧ ¬ (((net.server.wires n).take (net.taken n)).filterMap Packet.stamp).Pairwise (· ≤ ·) := by
  have quiet : ∀ action ∈ leaseCycles (2 ^ 63 - 1), ∀ bytes source,
      action ≠ .report bytes source := by
    intro action member bytes source
    obtain ⟨cycle, same, member⟩ := List.mem_flatten.mp member
    rw [List.eq_of_mem_replicate same] at member
    rintro rfl
    simp [leaseCycle, greeting] at member
  have deserted := leaseCycles_prompt (2 ^ 63 - 1)
  have sound : Sound (run prompt (leaseCycles (2 ^ 63 - 1)) {}) :=
    (follows_run ⟨sound_start, Grew.refl _⟩ _).1
  obtain ⟨c, server, ⟨net, reachable, rfl, own, -, read⟩, -, -, -, -, stamps⟩ :=
    leased_prompt deserted sound (alone_run .start rfl quiet)
  refine ⟨net, _, c, reachable, own, ?_⟩
  rw [read, stamps, sound.generation, deserted.changes]
  decide

end Net

end OscmixDesk.Backend
