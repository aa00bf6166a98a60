/-
**Client and server agree on the lease.**

Each `Control` is compared with the server through the client that has read everything sent to it: its
view after the packets on its wire and in its queue (`View.follow`). That view takes every packet, has seen
no generation beyond the server's, and holds a lease only where the server's owner is its slot, under the
same generation (`Caught`). Every small change of the server keeps this (`stable_holds`), every reply fits
the request it answers (`holds_reply`), and so does every request, served to its end (`holds_receive`).
-/

import OscmixDesk.Proof.Streams
import OscmixDesk.Proof.Views

namespace OscmixDesk.Backend

variable {outside : Outside}

/-! ### The invariant -/

/-- How far the server is with the requests of a client: they are on their way, one is served, a HELLO
is, or the END of a lease is to be answered. -/
inductive Stage
  | idle (mail : List Frame)
  | busy (frame : Frame)
  | greeting (frame : Frame)
  | ended (frame : Frame)

/-- What a request says of the lease of its client. -/
def Call.Told : Call → View → Frame → Prop
  | .hello, v, frame => frame.data = put32 v.sources
  | .begin, v, _ => v.lease = none
  | .finish token, v, frame => v.lease = none ∧ frame.token = token
  | .heartbeat, v, frame => v.lease = some frame.token
  | .write, v, frame => v.lease = some frame.token
  | .requestDump, _, _ => True

/-- A request is the one its client waits on. -/
structure Awaits (v : View) (call : Call) (frame : Frame) : Prop where
  pending : v.pending = some call
  kind : frame.kind = some call.kind
  number : frame.request = v.requestId
  told : call.Told v frame

def Stage.Fits : Stage → UInt64 → View → Prop
  | .idle mail, _, v => (v.pending = none ∧ mail = []) ∨ ∃ call frame, mail = [frame] ∧ Awaits v call frame
  | .busy frame, _, v => ∃ call, Awaits v call frame
  | .greeting frame, _, v => ∃ call, Awaits v call frame
  | .ended frame, generation, v => Awaits v (.finish frame.token) frame ∧ frame.token < generation

/-- What does not change in a turn of the server: the connections it began with, what each client has
read and how it judges, and the stage of its request. -/
structure Parties where
  fd : Slot → Option ℕ
  views : ℕ → Option View
  taken : ℕ → ℕ
  stage : Slot → Stage
  /-- The slots that the delivery under way has yet to reach. -/
  waiting : Slot → Prop
  /-- What the clients can decode. -/
  decodes : List UInt8 → Bool

/-- A client that has read everything agrees with the server. -/
structure Caught (d : Parties) (s : Server) (i : Slot) (v : View) : Prop where
  generation : v.generation ≤ s.generation
  sequence : v.lastSequence ≤ s.observation
  waiting : d.waiting i → v.lastSequence < s.observation
  greeted : (∀ frame, d.stage i ≠ .greeting frame) → (s.clients i).sources ≠ 0 →
    v.epoch ≠ [] ∧ v.sources = (s.clients i).sources
  claim : (∀ frame, d.stage i ≠ .ended frame) → ∀ t, v.claim = some t →
    s.owner = some i ∧ s.generation = t
  fits : (d.stage i).Fits s.generation v

/-- The generation a packet carries. -/
def Packet.stamp (packet : Packet) : Option UInt64 :=
  match packet.kind with
  | .reply _ => some packet.sequence
  | .event => some packet.sequence
  | _ => none

/-- A delivery can be decoded. -/
def Packet.Genuine (decodes : List UInt8 → Bool) (packet : Packet) : Prop :=
  packet.kind = .observation → ∃ data, packet.payload = .osc data ∧ decodes data = true

/-- A connected slot. -/
structure Connected (outside : Outside) (d : Parties) (s : Server) (i : Slot) (connection : ℕ) :
    Prop where
  ordered : ((s.stream i connection).filterMap Packet.stamp).Pairwise (· ≤ ·)
  bounded : ∀ generation ∈ (s.stream i connection).filterMap Packet.stamp, generation ≤ s.generation
  genuine : ∀ packet ∈ s.stream i connection, packet.Genuine d.decodes
  caught : ∀ v, d.views connection = some v → ∃ w,
    v.follow outside ((s.stream i connection).drop (d.taken connection)) = .ok w ∧ Caught d s i w

structure Agreed (outside : Outside) (d : Parties) (s : Server) : Prop where
  observation : s.observation = UInt64.ofNat s.broadcasts
  known : ∀ i n, (s.clients i).fd = some n → d.fd i = some n
  taken : ∀ n, d.taken n ≤ (s.wires n).length
  wire : ∀ n v, d.views n = some v → ∃ w, v.follow outside ((s.wires n).drop (d.taken n)) = .ok w
  ordered : ∀ n, ((s.wires n).filterMap Packet.stamp).Pairwise (· ≤ ·)
  genuine : ∀ n, ∀ packet ∈ s.wires n, packet.Genuine d.decodes
  connected : ∀ i n, (s.clients i).fd = some n → Connected outside d s i n

/-- No counter has come round. -/
def Bounded (s : Server) : Prop :=
  1 + s.changes < 2 ^ 64 ∧ s.broadcasts < 2 ^ 64

def Holds (outside : Outside) (d : Parties) (s : Server) : Prop :=
  Sound s ∧ (Bounded s → Agreed outside d s)

/-! ### What a turn keeps -/

section Kept

variable {d : Parties} {s t : Server} {i : Slot} {n : ℕ}

/-- A slot is judged by its own packets, the lease and the last delivery. -/
theorem Connected.congr (connected : Connected outside d s i n) (stream : t.stream i n = s.stream i n)
    (sources : (t.clients i).sources = (s.clients i).sources) (owner : t.owner = s.owner)
    (generation : t.generation = s.generation) (observation : t.observation = s.observation) :
    Connected outside d t i n where
  ordered := stream ▸ connected.ordered
  bounded := by
    rw [stream, generation]
    exact connected.bounded
  genuine := stream ▸ connected.genuine
  caught v known := by
    obtain ⟨w, followed, caught⟩ := connected.caught v known
    refine ⟨w, stream ▸ followed, ?_⟩
    exact
      { generation := generation ▸ caught.generation
        sequence := observation ▸ caught.sequence
        waiting := observation ▸ caught.waiting
        greeted := sources ▸ caught.greeted
        claim := by
          rw [owner, generation]
          exact caught.claim
        fits := generation ▸ caught.fits }

theorem agreed_quiet (agreed : Agreed outside d s) (alike : Alike s t) : Agreed outside d t := by
  have field {β : Type} (field : Client → β)
      (blind : ∀ c wish, field { c with refresh := wish } = field c) (i : Slot) :
      field (t.clients i) = field (s.clients i) := by
    rw [← alike.clients i]
    exact (blind (t.clients i) (s.clients i).refresh).symm
  have fd := field Client.fd fun _ _ => rfl
  refine ⟨?_, ?_, ?_, ?_, ?_, ?_, fun i n known => ?_⟩
  · rw [alike.observation, alike.broadcasts]
    exact agreed.observation
  · intro i n known
    exact agreed.known i n (fd i ▸ known)
  · rw [alike.wires]
    exact agreed.taken
  · rw [alike.wires]
    exact agreed.wire
  · rw [alike.wires]
    exact agreed.ordered
  · rw [alike.wires]
    exact agreed.genuine
  · refine (agreed.connected i n (fd i ▸ known)).congr ?_ (field Client.sources (fun _ _ => rfl) i)
      alike.owner alike.generation alike.observation
    rw [Server.stream, Server.stream, alike.wires, field Client.queue fun _ _ => rfl]

/-- A packet on the wire is where it was in the queue. -/
theorem agreed_took (sound : Sound s) (agreed : Agreed outside d s) {index : Slot} {connection : ℕ}
    {packet : Packet} {rest : List Packet} (fd : (s.clients index).fd = some connection)
    (queue : (s.clients index).queue = packet :: rest) :
    Agreed outside d (s.took index connection packet rest) := by
  have drained := Drained.took index connection packet rest s
  have here := agreed.connected index connection fd
  have stream : s.stream index connection = (s.wires connection ++ [packet]) ++ rest := by
    rw [Server.stream, queue, List.append_assoc]
    rfl
  refine ⟨agreed.observation, fun i n known => ?_, fun n => ?_, fun n v known => ?_,
    fun n => ?_, fun n => ?_, fun i n known => ?_⟩
  · exact agreed.known i n (drained.fd i ▸ known)
  · rw [took_wires]
    split_ifs with same
    · subst same
      exact (agreed.taken n).trans (by simp)
    · exact agreed.taken n
  · rw [took_wires]
    split_ifs with same
    · subst same
      obtain ⟨w, followed, -⟩ := here.caught v known
      rw [stream, List.drop_append_of_le_length ((agreed.taken n).trans (by simp))] at followed
      obtain ⟨middle, first, -⟩ := View.follow_append.mp followed
      exact ⟨middle, first⟩
    · exact agreed.wire n v known
  · rw [took_wires]
    split_ifs with same
    · subst same
      have ordered := here.ordered
      rw [stream, List.filterMap_append] at ordered
      exact (List.pairwise_append.mp ordered).1
    · exact agreed.ordered n
  · rw [took_wires]
    split_ifs with same
    · subst same
      intro packet member
      exact here.genuine packet (stream ▸ List.mem_append_left rest member)
    · exact agreed.genuine n
  · rw [drained.fd] at known
    exact (agreed.connected i n known).congr (took_stream sound fd queue known) (drained.sources i)
      drained.owner drained.generation drained.observation

theorem closeClient_wires (index : Slot) (s : Server) :
    (closeClient index s).wires = s.wires ∧ (closeClient index s).observation = s.observation
      ∧ (closeClient index s).broadcasts = s.broadcasts := by
  unfold closeClient
  cases (s.clients index).fd <;> exact ⟨rfl, rfl, rfl⟩

theorem agreed_close (agreed : Agreed outside d s) (index : Slot) :
    Agreed outside d (closeClient index s) := by
  obtain ⟨wires, observation, broadcasts⟩ := closeClient_wires index s
  obtain ⟨-, generation, -⟩ := closeClient_rest index s
  refine ⟨?_, fun i n known => ?_, ?_, ?_, ?_, ?_, fun i n known => ?_⟩
  · rw [observation, broadcasts]
    exact agreed.observation
  · exact agreed.known i n (closeClient_connected known).2
  · rw [wires]
    exact agreed.taken
  · rw [wires]
    exact agreed.wire
  · rw [wires]
    exact agreed.ordered
  · rw [wires]
    exact agreed.genuine
  · obtain ⟨other, known'⟩ := closeClient_connected known
    have same := closeClient_other other s
    refine (agreed.connected i n known').congr ?_ (congrArg Client.sources same)
      (closeClient_owner index s) generation observation
    rw [Server.stream, Server.stream, wires, same]

/-- The next generation is later, as long as the counter does not come round. -/
theorem lt_next {g : UInt64} {changes : ℕ} (known : g = UInt64.ofNat (1 + changes))
    (bounded : 1 + (changes + 1) < 2 ^ 64) : g < g + 1 := by
  rw [UInt64.lt_iff_toNat_lt, next_generation known, known, UInt64.toNat_ofNat', UInt64.toNat_ofNat',
    Nat.mod_eq_of_lt bounded, Nat.mod_eq_of_lt (by omega)]
  omega

/-- The server as the lease changes hands. -/
def Server.changed (owner : Option Slot) (s : Server) : Server :=
  { s with owner := owner, generation := s.generation + 1, changes := s.changes + 1 }

/-- A client that claims nothing is at ease with any owner. -/
theorem Caught.changed {w : View} (caught : Caught d s i w) (owner : Option Slot)
    (later : s.generation < s.generation + 1)
    (unclaimed : (∀ frame, d.stage i ≠ .ended frame) → w.claim = none) :
    Caught d (s.changed owner) i w where
  generation := UInt64.le_trans caught.generation (UInt64.le_of_lt later)
  sequence := caught.sequence
  waiting := caught.waiting
  greeted := caught.greeted
  claim stage t claimed := by
    rw [unclaimed stage] at claimed
    cases claimed
  fits := by
    have fits := caught.fits
    cases stage : d.stage i with
    | idle mail => rwa [stage] at fits
    | busy frame => rwa [stage] at fits
    | greeting frame => rwa [stage] at fits
    | ended frame =>
        rw [stage] at fits
        exact ⟨fits.1, UInt64.lt_trans fits.2 later⟩

/-- The same parties, but for one slot. -/
structure Near (d d' : Parties) (index : Slot) : Prop where
  fd : d'.fd = d.fd
  views : d'.views = d.views
  taken : d'.taken = d.taken
  stage : ∀ j ≠ index, d'.stage j = d.stage j
  waiting : ∀ j ≠ index, d'.waiting j → d.waiting j
  decodes : d'.decodes = d.decodes

theorem Near.refl (d : Parties) (index : Slot) : Near d d index :=
  ⟨rfl, rfl, rfl, fun _ _ => rfl, fun _ _ waiting => waiting, rfl⟩

/-- The lease changes hands, with the consent of every client. -/
theorem agreed_changed {d' : Parties} {index : Slot} (near : Near d d' index) (owner : Option Slot)
    (later : s.generation < s.generation + 1)
    (consent : ∀ i n w, (s.clients i).fd = some n → Caught d s i w → Caught d' (s.changed owner) i w)
    (agreed : Agreed outside d s) : Agreed outside d' (s.changed owner) where
  observation := agreed.observation
  known := near.fd ▸ agreed.known
  taken := near.taken ▸ agreed.taken
  wire := by
    rw [near.views, near.taken]
    exact agreed.wire
  ordered := agreed.ordered
  genuine := near.decodes ▸ agreed.genuine
  connected i n fd := by
    have here := agreed.connected i n fd
    refine ⟨here.ordered, fun g member => UInt64.le_trans (here.bounded g member)
      (UInt64.le_of_lt later), near.decodes ▸ here.genuine, fun v view => ?_⟩
    obtain ⟨w, followed, caught⟩ := here.caught v (near.views ▸ view)
    exact ⟨w, near.taken ▸ followed, consent i n w fd caught⟩

/-- What happens to one slot is nothing to another. -/
theorem Caught.near {d' : Parties} {index : Slot} {w : View} (near : Near d d' index)
    (other : i ≠ index) (caught : Caught d s i w) : Caught d' s i w where
  generation := caught.generation
  sequence := caught.sequence
  waiting := fun waiting => caught.waiting (near.waiting i other waiting)
  greeted := near.stage i other ▸ caught.greeted
  claim := near.stage i other ▸ caught.claim
  fits := near.stage i other ▸ caught.fits

theorem Connected.near {d' : Parties} {index : Slot} (near : Near d d' index) (other : i ≠ index)
    (connected : Connected outside d s i n) : Connected outside d' s i n where
  ordered := connected.ordered
  bounded := connected.bounded
  genuine := near.decodes ▸ connected.genuine
  caught v known := by
    obtain ⟨w, followed, caught⟩ := connected.caught v (near.views ▸ known)
    exact ⟨w, near.taken ▸ followed, caught.near near other⟩

/-- The stage of a slot that is not connected is nothing to anybody. -/
theorem agreed_gone {d' : Parties} {index : Slot} (near : Near d d' index)
    (gone : (s.clients index).fd = none) (agreed : Agreed outside d s) : Agreed outside d' s where
  observation := agreed.observation
  known := near.fd ▸ agreed.known
  taken := near.taken ▸ agreed.taken
  wire := by
    rw [near.views, near.taken]
    exact agreed.wire
  ordered := agreed.ordered
  genuine := near.decodes ▸ agreed.genuine
  connected i n known := by
    refine (agreed.connected i n known).near near ?_
    rintro rfl
    rw [gone] at known
    cases known

@[simp] theorem push_sources (index i : Slot) (packet : Packet) (s : Server) :
    ((s.push index packet).clients i).sources = (s.clients i).sources := by
  by_cases same : i = index
  · subst same
    simp [Server.push, Server.modify]
  · simp [Server.push, Server.modify, Function.update_of_ne same]

/-- A packet is queued that its client will take. -/
theorem agreed_push {d' : Parties} {index : Slot} {packet : Packet} (near : Near d d' index)
    (fd : (s.clients index).fd = some n)
    (stamped : ∀ generation, packet.stamp = some generation → generation = s.generation)
    (genuine : packet.Genuine d.decodes)
    (accepted : ∀ v w, d.views n = some v → Caught d s index w →
      ∃ w', w.receive outside packet = .ok w' ∧ Caught d' s index w')
    (agreed : Agreed outside d s) : Agreed outside d' (s.push index packet) where
  observation := agreed.observation
  known i m known := by
    rw [near.fd]
    exact agreed.known i m (by rwa [push_fd] at known)
  taken := near.taken ▸ agreed.taken
  wire := by
    rw [near.views, near.taken]
    exact agreed.wire
  ordered := agreed.ordered
  genuine := near.decodes ▸ agreed.genuine
  connected i m known := by
    rw [push_fd] at known
    have here := agreed.connected i m known
    by_cases same : i = index
    · subst same
      obtain rfl : n = m := Option.some_inj.mp (fd.symm.trans known)
      have stream : (s.push i packet).stream i n = s.stream i n ++ [packet] := by
        simp [Server.stream, Server.push, Server.modify]
      have added : (s.stream i n ++ [packet]).filterMap Packet.stamp
          = (s.stream i n).filterMap Packet.stamp ++ packet.stamp.toList := by
        rw [List.filterMap_append]
        cases stamp : packet.stamp <;> simp [stamp]
      have last : ∀ generation ∈ packet.stamp.toList, generation = s.generation := fun generation member =>
        stamped generation (Option.mem_toList.mp member)
      refine ⟨?_, ?_, ?_, fun v view => ?_⟩
      · rw [stream, added]
        refine List.pairwise_append.mpr ⟨here.ordered, ?_, fun a before b member => ?_⟩
        · cases packet.stamp <;> simp
        · rw [last b member]
          exact here.bounded a before
      · rw [stream, added]
        intro generation member
        rcases List.mem_append.mp member with old | new
        · exact here.bounded generation old
        · rw [last generation new]
          exact UInt64.le_refl _
      · rw [stream, near.decodes]
        intro other member
        rcases List.mem_append.mp member with old | new
        · exact here.genuine other old
        · exact List.mem_singleton.mp new ▸ genuine
      · obtain ⟨w, followed, caught⟩ := here.caught v (near.views ▸ view)
        obtain ⟨w', taken, caught'⟩ := accepted v w (near.views ▸ view) caught
        refine ⟨w', ?_, ?_⟩
        · have short : d.taken n ≤ (s.stream i n).length := by
            rw [Server.stream, List.length_append]
            exact (agreed.taken n).trans (Nat.le_add_right _ _)
          rw [stream, near.taken, List.drop_append_of_le_length short]
          exact View.follow_append.mpr ⟨w, followed, View.follow_singleton.mpr taken⟩
        · exact { caught' with greeted := by rw [push_sources]; exact caught'.greeted }
    · refine (here.near near same).congr ?_ (push_sources index i packet s) rfl rfl rfl
      simp [Server.stream, Server.push, Server.modify, Function.update_of_ne same]

/-- What a client read besides is nothing to its request. -/
theorem Awaits.congr {v w : View} {call : Call} {frame : Frame} (awaits : Awaits v call frame)
    (pending : w.pending = v.pending) (number : w.requestId = v.requestId) (lease : w.lease = v.lease)
    (sources : w.sources = v.sources) : Awaits w call frame where
  pending := pending.trans awaits.pending
  kind := awaits.kind
  number := awaits.number.trans number.symm
  told := by
    have told := awaits.told
    cases call with
    | hello => exact told.trans (congrArg put32 sources.symm)
    | begin => exact lease.trans told
    | finish token => exact ⟨lease.trans told.1, told.2⟩
    | heartbeat => exact lease.trans told
    | write => exact lease.trans told
    | requestDump => trivial

theorem Stage.Fits.congr {stage : Stage} {g : UInt64} {v w : View} (fits : stage.Fits g v)
    (pending : w.pending = v.pending) (number : w.requestId = v.requestId) (lease : w.lease = v.lease)
    (sources : w.sources = v.sources) : stage.Fits g w := by
  cases stage with
  | idle mail =>
      refine fits.imp (fun none => ⟨pending.trans none.1, none.2⟩) fun asked => ?_
      obtain ⟨call, frame, same, awaits⟩ := asked
      exact ⟨call, frame, same, awaits.congr pending number lease sources⟩
  | busy frame =>
      obtain ⟨call, awaits⟩ := fits
      exact ⟨call, awaits.congr pending number lease sources⟩
  | greeting frame =>
      obtain ⟨call, awaits⟩ := fits
      exact ⟨call, awaits.congr pending number lease sources⟩
  | ended frame => exact ⟨fits.1.congr pending number lease sources, fits.2⟩

/-- A lease a client holds is one it claims. -/
theorem Caught.held {w : View} {token : UInt64} (caught : Caught d s i w)
    (lease : w.lease = some token) : s.owner = some i ∧ s.generation = token := by
  have asked {call : Call} {frame : Frame} (awaits : Awaits w call frame) : w.claim = some token := by
    unfold View.claim
    rw [awaits.pending]
    cases call with
    | finish other =>
        have none : w.lease = none := awaits.told.1
        rw [lease] at none
        cases none
    | hello => exact lease
    | begin => exact lease
    | heartbeat => exact lease
    | write => exact lease
    | requestDump => exact lease
  have fits := caught.fits
  cases stage : d.stage i with
  | idle mail =>
      rw [stage] at fits
      refine caught.claim (by simp [stage]) token ?_
      rcases fits with ⟨none, -⟩ | ⟨call, frame, -, awaits⟩
      · unfold View.claim
        rw [none]
        exact lease
      · exact asked awaits
  | busy frame =>
      rw [stage] at fits
      exact caught.claim (by simp [stage]) token (asked fits.choose_spec)
  | greeting frame =>
      rw [stage] at fits
      exact caught.claim (by simp [stage]) token (asked fits.choose_spec)
  | ended frame =>
      rw [stage] at fits
      have none : w.lease = none := fits.1.told.1
      rw [lease] at none
      cases none

/-- A client takes an event and waits on as before. -/
theorem Caught.seen {w w' : View} (caught : Caught d s i w) (same : w' = { w with
      generation := w'.generation, leaseHeld := w'.leaseHeld, lastSequence := w'.lastSequence })
    (generation : w'.generation ≤ s.generation) (sequence : w'.lastSequence ≤ s.observation)
    (waiting : d.waiting i → w'.lastSequence < s.observation) : Caught d s i w' where
  generation := generation
  sequence := sequence
  waiting := waiting
  greeted := by
    rw [same]
    exact caught.greeted
  claim := by
    rw [same]
    exact caught.claim
  fits := by
    rw [same]
    exact caught.fits.congr rfl rfl rfl rfl

theorem caught_leaseEvent {w : View} (caught : Caught d s i w) :
    ∃ w', w.receive outside s.leaseEvent = .ok w' ∧ Caught d s i w' := by
  refine ⟨_, View.receive_leaseEvent ?_ caught.generation fun t lease => ?_, caught.seen rfl
    (UInt64.le_refl _) caught.sequence caught.waiting⟩
  · split_ifs
    · exact Or.inl rfl
    · exact Or.inr rfl
  · obtain ⟨owner, same⟩ := caught.held lease
    exact ⟨same.symm, by rw [if_neg (by simp [owner])]⟩

/-- Only clocks and wishes differ. -/
theorem holds_quiet {d : Parties} (held : Holds outside d s) (alike : Alike s t) : Holds outside d t := by
  have fd (i : Slot) : (t.clients i).fd = (s.clients i).fd := congrArg Client.fd (alike.clients i) ▸ rfl
  refine ⟨held.1.kept fd alike.connections alike.owner alike.generation alike.changes alike.executed
    alike.wires, fun bounded => agreed_quiet (held.2 ?_) alike⟩
  unfold Bounded at bounded ⊢
  rwa [← alike.changes, ← alike.broadcasts]

theorem stable_holds (outside : Outside) (d : Parties) : Stable (Holds outside d) where
  asks s held := holds_quiet held (alike_next s)
  took s index connection packet rest held fd queue :=
    ⟨handles_sound.took s index connection packet rest held.1 fd queue, fun bounded =>
      agreed_took held.1 (held.2 bounded) fd queue⟩
  close s index held fd owner := by
    refine ⟨handles_sound.close s index held.1 fd owner, fun bounded => agreed_close (held.2 ?_) index⟩
    unfold Bounded at bounded ⊢
    rwa [(closeClient_rest index s).2.2.1, (closeClient_wires index s).2.2] at bounded
  lose s index held fd owner := by
    have sound := handles_sound.lose s index held.1 fd owner
    refine ⟨sound, fun bounded => ?_⟩
    have before : Bounded s := by
      unfold Bounded Server.released at bounded
      dsimp only at bounded
      rw [(closeClient_rest index s).2.2.1, (closeClient_wires index s).2.2] at bounded
      exact ⟨by omega, bounded.2⟩
    obtain ⟨-, generation, changes, -⟩ := closeClient_rest index s
    have later : (closeClient index s).generation < (closeClient index s).generation + 1 :=
      lt_next (by rw [generation, changes, held.1.generation]) bounded.1
    refine agreed_changed (Near.refl d index) none later (fun i n w known caught =>
      caught.changed none later fun stage => ?_) (agreed_close (held.2 before) index)
    cases claimed : w.claim with
    | none => rfl
    | some token =>
        have owner' := (caught.claim stage token claimed).1
        rw [closeClient_owner, owner] at owner'
        exact absurd (Option.some_inj.mp owner').symm (closeClient_connected known).1
  event s index held fd role := by
    obtain ⟨n, known⟩ := Option.ne_none_iff_exists'.mp fd
    refine ⟨handles_sound.event s index held.1 fd role, fun bounded => ?_⟩
    refine agreed_push (Near.refl d index) known (fun g stamp => ?_) (fun kind => by cases kind)
      (fun v w _ caught => ?_) (held.2 bounded)
    · exact (Option.some_inj.mp stamp).symm
    · exact caught_leaseEvent caught

/-! ### Deliveries and windows -/

/-- What the OSC handler and the MIDI side broadcast. -/
structure Delivered (decodes : List UInt8 → Bool) (data : List UInt8) : Prop where
  filled : data ≠ []
  aligned : data.length % 4 = 0
  decoded : decodes data = true

/-- Fewer slots wait. -/
theorem holds_waiting {before after : Slot → Prop} (fewer : ∀ i, after i → before i)
    (held : Holds outside { d with waiting := before } s) :
    Holds outside { d with waiting := after } s := by
  refine ⟨held.1, fun bounded => ?_⟩
  have agreed := held.2 bounded
  refine ⟨agreed.observation, agreed.known, agreed.taken, agreed.wire, agreed.ordered,
    agreed.genuine, fun i n known => ?_⟩
  have here := agreed.connected i n known
  refine ⟨here.ordered, here.bounded, here.genuine, fun v view => ?_⟩
  obtain ⟨w, followed, caught⟩ := here.caught v view
  exact ⟨w, followed, caught.generation, caught.sequence, fun told => caught.waiting (fewer i told),
    caught.greeted, caught.claim, caught.fits⟩

/-- The next delivery has a number that no client has seen. -/
theorem holds_observed (held : Holds outside d s) :
    Holds outside { d with waiting := fun _ => True }
      { s with observation := s.observation + 1, broadcasts := s.broadcasts + 1 } := by
  refine ⟨held.1.kept (fun _ => rfl) rfl rfl rfl rfl rfl rfl, fun bounded => ?_⟩
  have before : Bounded s := ⟨bounded.1, Nat.lt_of_succ_lt bounded.2⟩
  have agreed := held.2 before
  have later : s.observation < s.observation + 1 := by
    have bound : s.broadcasts + 1 < 2 ^ 64 := bounded.2
    rw [UInt64.lt_iff_toNat_lt, agreed.observation,
      show UInt64.ofNat s.broadcasts + 1 = UInt64.ofNat (s.broadcasts + 1) from
        (UInt64.ofNat_add s.broadcasts 1).symm,
      UInt64.toNat_ofNat', UInt64.toNat_ofNat', Nat.mod_eq_of_lt bound, Nat.mod_eq_of_lt (by omega)]
    exact Nat.lt_succ_self _
  refine ⟨?_, agreed.known, agreed.taken, agreed.wire, agreed.ordered, agreed.genuine,
    fun i n known => ?_⟩
  · show s.observation + 1 = UInt64.ofNat (s.broadcasts + 1)
    rw [agreed.observation, UInt64.ofNat_add]
    rfl
  · have here := agreed.connected i n known
    refine ⟨here.ordered, here.bounded, here.genuine, fun v view => ?_⟩
    obtain ⟨w, followed, caught⟩ := here.caught v view
    exact ⟨w, followed, caught.generation, UInt64.le_trans caught.sequence (UInt64.le_of_lt later),
      fun _ => UInt64.lt_of_le_of_lt caught.sequence later, caught.greeted, caught.claim, caught.fits⟩

theorem holds_broadcast {data : List UInt8} (delivered : Delivered d.decodes data)
    (plain : ∀ i frame, d.stage i ≠ .greeting frame) (settled : d.waiting = fun _ => False)
    (source : Source) (held : Holds outside d s) :
    Holds outside d (controlBroadcast outside data source s) := by
  have loop (slots : List Slot) (distinct : slots.Nodup) (t : Server)
      (held : Holds outside { d with waiting := (· ∈ slots) } t) :
      Holds outside d (slots.foldl (fun s i =>
        if (s.clients i).fd ≠ none ∧ (s.clients i).sources &&& source.bit ≠ 0 then
          enqueue outside (disconnect outside) i
            ⟨.observation, 0, source.bit, s.observation, .osc data⟩ s
        else s) t) := by
    induction slots generalizing t with
    | nil =>
        have none : (fun i => i ∈ ([] : List Slot)) = d.waiting := by
          rw [settled]
          funext i
          simp
        rwa [none] at held
    | cons i rest ih =>
        obtain ⟨fresh, distinct⟩ := List.nodup_cons.mp distinct
        have fewer {u : Server} (held : Holds outside { d with waiting := (· ∈ i :: rest) } u) :
            Holds outside { d with waiting := (· ∈ rest) } u :=
          holds_waiting (fun j member => List.mem_cons_of_mem i member) held
        rw [List.foldl_cons]
        refine ih distinct _ ?_
        by_cases told : (t.clients i).fd ≠ none ∧ (t.clients i).sources &&& source.bit ≠ 0
        · rw [if_pos told]
          refine enqueue_keeps (stable_holds outside _) (stable_holds outside _) disconnect_drops
            (disconnect_keeps (stable_holds outside _)) (disconnect_keeps (stable_holds outside _))
            (fun u held _ => fewer held) (fun u held drained fd fits _ => ?_) held
          obtain ⟨n, known⟩ := Option.ne_none_iff_exists'.mp fd
          refine ⟨held.1.kept (fun j => push_fd i j _ u) rfl rfl rfl rfl rfl rfl, fun bounded => ?_⟩
          have near : Near { d with waiting := (· ∈ i :: rest) } { d with waiting := (· ∈ rest) } i :=
            ⟨rfl, rfl, rfl, fun _ _ => rfl, fun j _ member => List.mem_cons_of_mem i member, rfl⟩
          refine agreed_push near known (fun g stamp => by cases stamp)
            (fun _ => ⟨data, rfl, delivered.decoded⟩) (fun v w _ caught => ?_) (held.2 bounded)
          have subscribed : (u.clients i).sources &&& source.bit ≠ 0 := by
            rw [drained.sources]
            exact told.2
          have some' : (u.clients i).sources ≠ 0 := by
            intro zero
            rw [zero] at subscribed
            simp at subscribed
          obtain ⟨greeted, sources⟩ := caught.greeted (plain i) some'
          have later : w.lastSequence < t.observation := by
            rw [← drained.observation]
            exact caught.waiting List.mem_cons_self
          refine ⟨_, View.receive_observation (by rwa [sources]) delivered.filled
            delivered.aligned fits later greeted, ?_⟩
          have seen : Caught { d with waiting := fun _ => False } u i { w with lastSequence := t.observation } :=
            Caught.seen { caught with waiting := fun none => none.elim } rfl caught.generation
              (by rw [← drained.observation]; exact UInt64.le_refl _) fun none => none.elim
          exact { seen with waiting := fun member => absurd member fresh }
        · rw [if_neg told]
          exact fewer held
  unfold controlBroadcast
  refine loop (List.finRange 16) (List.nodup_finRange 16) _ ?_
  exact holds_waiting (fun _ _ => trivial) (holds_observed held)

end Kept

/-! ### Requests -/

/-- What the parts outside the protocol are known to do. -/
structure Honest (outside : Outside) (decodes : List UInt8 → Bool) : Prop where
  command : ∀ n data delivery, delivery ∈ (outside.command n data).broadcasts →
    Delivered decodes delivery.1
  epoch : outside.epoch ≠ []
  terminated : outside.deviceName.contains 0 = false
  text : (ByteArray.mk outside.deviceName.toArray).validateUTF8 = true

/-- The parties, with one slot at another stage. -/
def Parties.at (d : Parties) (index : Slot) (stage : Stage) : Parties :=
  { d with stage := Function.update d.stage index stage }

section Requests

variable {d : Parties} {s : Server} {index : Slot} {stage : Stage}
  {frame : Frame}

@[simp] theorem at_stage : (d.at index stage).stage index = stage := by simp [Parties.at]

theorem near_at (d : Parties) (index : Slot) (before after : Stage) :
    Near (d.at index before) (d.at index after) index :=
  ⟨rfl, rfl, rfl, fun j other => by simp [Parties.at, other], fun _ _ waiting => waiting, rfl⟩

theorem serves_holds (honest : Honest outside d.decodes) (plain : ∀ i frame, d.stage i ≠ .greeting frame)
    (settled : d.waiting = fun _ => False) : Serves outside (Holds outside d) where
  toStable := stable_holds outside d
  opens s until' held := holds_quiet held ⟨fun _ => rfl, rfl, rfl, rfl, rfl, rfl, rfl, rfl, rfl⟩
  closes s held := holds_quiet held ⟨fun _ => rfl, rfl, rfl, rfl, rfl, rfl, rfl, rfl, rfl⟩
  window s index code held fd _ known := by
    obtain ⟨n, fd⟩ := Option.ne_none_iff_exists'.mp fd
    refine ⟨held.1.kept (fun j => push_fd index j _ s) rfl rfl rfl rfl rfl rfl, fun bounded => ?_⟩
    exact agreed_push (Near.refl d index) fd (fun g stamp => by cases stamp) (fun kind => by cases kind)
      (fun v w _ caught => ⟨w, View.receive_window known, caught⟩) (held.2 bounded)
  handled n data delivery s member held :=
    holds_broadcast (honest.command n data delivery member) plain settled delivery.2 held

/-- A packet is queued that moves its client to the next stage. -/
theorem holds_enqueue {d' : Parties} {packet : Packet} (near : Near d d' index)
    (stamped : ∀ generation, packet.stamp = some generation → generation = s.generation)
    (event : packet.kind ≠ .observation)
    (accepted : ∀ t n v w, Drained s t → packet.payload.length ≤ controlPayload →
      (t.clients index).fd = some n → d.views n = some v → Caught d t index w →
      ∃ w', w.receive outside packet = .ok w' ∧ Caught d' t index w')
    (held : Holds outside d s) :
    Holds outside d' (enqueue outside (disconnect outside) index packet s) := by
  refine enqueue_keeps (stable_holds outside d) (stable_holds outside d') disconnect_drops
    (disconnect_keeps (stable_holds outside d)) (disconnect_keeps (stable_holds outside d'))
    (fun t held gone => ⟨held.1, fun bounded => agreed_gone near gone (held.2 bounded)⟩)
    (fun t held drained fd fits _ => ?_) held
  obtain ⟨n, fd⟩ := Option.ne_none_iff_exists'.mp fd
  refine ⟨held.1.kept (fun j => push_fd index j _ t) rfl rfl rfl rfl rfl rfl, fun bounded => ?_⟩
  refine agreed_push near fd (fun g stamp => ?_) (fun kind => absurd kind event)
    (fun v w view caught => ?_) (held.2 bounded)
  · rw [drained.generation]
    exact stamped g stamp
  · exact accepted t n v w drained fits fd view caught

theorem holds_leaseEvent (held : Holds outside d s) :
    Holds outside d (enqueue outside (disconnect outside) index s.leaseEvent s) := by
  refine holds_enqueue (Near.refl d index) (fun g stamp => (Option.some_inj.mp stamp).symm)
    (by simp [Server.leaseEvent])
    (fun t n v w drained _ _ _ caught => ?_) held
  rw [← drained.leaseEvent]
  exact caught_leaseEvent caught

/-- A connection that is closed is at no stage. -/
theorem holds_dropped {d' : Parties} (near : Near d d' index) (held : Holds outside d s) :
    Holds outside d' (disconnect outside index s) := by
  have dropped : Holds outside d (disconnect outside index s) :=
    disconnect_keeps (stable_holds outside d) s index held
  exact ⟨dropped.1, fun bounded => agreed_gone near (disconnect_drops s index) (dropped.2 bounded)⟩

/-- The reply to the request a client waits on, as far as every reply is checked. -/
theorem receive_answer {w : View} {call : Call} (awaits : Awaits w call frame) {kind : Request}
    (asked : frame.kind = some kind) {code : UInt32} (sequence : UInt64)
    (known : code = controlOk ∨ code = controlBusy ∨ code = controlInvalid ∨ code = controlNotOwner) :
    w.receive outside ⟨.reply kind, frame.request, code, sequence, .none⟩
      = View.answered outside ⟨.reply kind, frame.request, code, sequence, .none⟩
        { w with pending := none } call := by
  have same : kind = call.kind := Option.some_inj.mp (asked.symm.trans awaits.kind)
  rw [View.receive_reply rfl awaits.pending (Nat.zero_le _)]
  unfold View.acknowledge
  rw [if_neg, if_neg]
  · rintro ⟨-, long | ⟨ok, busy, invalid, notOwner⟩⟩
    · exact long rfl
    · rcases known with known | known | known | known
      · exact ok known
      · exact busy known
      · exact invalid known
      · exact notOwner known
  · rintro (wrong | wrong)
    · exact wrong same
    · exact wrong awaits.number

/-- A client whose request is answered claims what it held. -/
theorem Caught.answered {w : View} (caught : Caught (d.at index (.busy frame)) s index w) :
    Caught (d.at index (.idle [])) s index { w with pending := none } where
  generation := caught.generation
  sequence := caught.sequence
  waiting := caught.waiting
  greeted _ := caught.greeted (by simp)
  claim _ t lease := caught.held lease
  fits := by
    rw [at_stage]
    exact Or.inl ⟨rfl, rfl⟩

/-- The request that is served is the one its client waits on. -/
theorem Caught.asked {w : View} (caught : Caught (d.at index (.busy frame)) s index w) :
    ∃ call, Awaits w call frame := by
  have fits := caught.fits
  rwa [at_stage] at fits

/-- A token is one its client claims. -/
theorem Caught.owner {w : View} (caught : Caught (d.at index (.busy frame)) s index w)
    (claims : w.claim = some frame.token) : hasLease index frame.token s = true := by
  obtain ⟨owner, same⟩ := caught.claim (by simp) _ claims
  simp [hasLease, owner, same]

/-- A reply that leaves its client's lease as it is. -/
theorem holds_reply {kind : Request} {code : UInt32} (asked : frame.kind = some kind)
    (known : code = controlOk ∨ code = controlBusy ∨ code = controlInvalid ∨ code = controlNotOwner)
    (fits : ∀ t w call, Drained s t → Caught (d.at index (.busy frame)) t index w →
      Awaits w call frame → View.answered outside ⟨.reply kind, frame.request, code, s.generation, .none⟩
        { w with pending := none } call = .ok { w with pending := none })
    (held : Holds outside (d.at index (.busy frame)) s) :
    Holds outside (d.at index (.idle [])) (reply outside index kind frame.request code s) := by
  refine holds_enqueue (near_at d index _ _) (fun g stamp => (Option.some_inj.mp stamp).symm) (by simp)
    (fun t n v w drained _ _ _ caught => ?_) held
  obtain ⟨call, awaits⟩ := caught.asked
  refine ⟨_, ?_, caught.answered⟩
  rw [receive_answer awaits asked s.generation known]
  exact fits t w call drained caught awaits

theorem Awaits.begins {w : View} {call : Call} (awaits : Awaits w call frame)
    (asked : frame.kind = some .begin) : call = .begin := by
  have kinds := Option.some_inj.mp (asked.symm.trans awaits.kind)
  cases call <;> first | rfl | cases kinds

theorem holds_beginLease (asked : frame.kind = some .begin)
    (held : Holds outside (d.at index (.busy frame)) s) (fd : (s.clients index).fd ≠ none) :
    Holds outside (d.at index (.idle [])) (beginLease outside index frame.request s) := by
  have refused {code : UInt32} (known : code = controlBusy ∨ code = controlNotOwner) :
      Holds outside (d.at index (.idle [])) (reply outside index .begin frame.request code s) := by
    refine holds_reply asked (by tauto) (fun t w call drained caught awaits => ?_) held
    rw [awaits.begins asked]
    refine if_neg ?_
    rcases known with rfl | rfl
    · simp [controlBusy, controlOk]
    · simp [controlNotOwner, controlOk]
  unfold beginLease
  split_ifs with role owner
  · exact refused (Or.inr rfl)
  · exact refused (Or.inl rfl)
  · have free : s.owner = none := by simpa using owner
    have begun : Holds outside (d.at index (.busy frame)) (s.changed (some index)) := by
      refine ⟨(follows_begun ⟨held.1, Grew.refl s⟩ fd).1, fun bounded => ?_⟩
      have later := lt_next held.1.generation bounded.1
      refine agreed_changed (Near.refl _ index) (some index) later (fun i n w _ caught =>
        caught.changed (some index) later fun stage => ?_)
        (held.2 ⟨Nat.lt_of_succ_lt bounded.1, bounded.2⟩)
      cases claimed : w.claim with
      | none => rfl
      | some token =>
          have owner' := (caught.claim stage token claimed).1
          rw [free] at owner'
          cases owner'
    have timed : Holds outside (d.at index (.busy frame)) { s.next.next with
      owner := some index, generation := s.generation + 1, changes := s.changes + 1,
      hardUntil := outside.now s.asked + leaseTotal,
      idleUntil := outside.now (s.asked + 1) + leaseIdle } :=
      holds_quiet begun ⟨fun _ => rfl, rfl, rfl, rfl, rfl, rfl, rfl, rfl, rfl⟩
    refine stateChanged_keeps (stable_holds outside _) disconnect_drops
      (disconnect_keeps (stable_holds outside _)) ?_
    refine holds_enqueue (near_at d index _ _) (fun g stamp => (Option.some_inj.mp stamp).symm) (by simp)
      (fun t n v w drained _ _ _ caught => ?_) timed
    obtain ⟨call, awaits⟩ := caught.asked
    rw [receive_answer awaits asked _ (Or.inl rfl), awaits.begins asked]
    have same : t.generation = s.generation + 1 := drained.generation
    refine ⟨{ w with
      pending := none, lease := some (s.generation + 1), generation := s.generation + 1 }, ?_, ?_⟩
    · rw [View.answered]
      exact if_pos rfl
    · refine { caught.answered with
        generation := ?_, claim := fun _ token lease => ?_, fits := ?_ }
      · rw [same]
        exact UInt64.le_refl _
      · exact ⟨drained.owner, same.trans (Option.some_inj.mp lease)⟩
      · rw [at_stage]
        exact Or.inl ⟨rfl, rfl⟩

theorem holds_keepalive (asked : frame.kind = some .keepalive)
    (held : Holds outside (d.at index (.busy frame)) s) :
    Holds outside (d.at index (.idle [])) (keepalive outside index frame.request frame.token s) := by
  have beats {w : View} {call : Call} (awaits : Awaits w call frame) :
      call = .heartbeat ∧ w.lease = some frame.token := by
    have kinds := Option.some_inj.mp (asked.symm.trans awaits.kind)
    have told := awaits.told
    cases call <;> first | exact ⟨rfl, told⟩ | cases kinds
  unfold keepalive
  by_cases lease : hasLease index frame.token s = true
  · rw [if_pos lease]
    have same : s.generation = frame.token := by
      have both : s.owner = some index ∧ frame.token = s.generation := by simpa [hasLease] using lease
      exact both.2.symm
    refine holds_reply asked (Or.inl rfl) (fun t w call drained caught awaits => ?_)
      (holds_quiet held ⟨fun _ => rfl, rfl, rfl, rfl, rfl, rfl, rfl, rfl, rfl⟩)
    obtain ⟨rfl, holds⟩ := beats awaits
    refine if_neg ?_
    rintro (wrong | wrong)
    · exact wrong rfl
    · exact wrong (by rw [holds]; exact congrArg some same)
  · rw [if_neg lease]
    refine holds_reply asked (by tauto) (fun t w call drained caught awaits => ?_) held
    obtain ⟨rfl, holds⟩ := beats awaits
    refine absurd ?_ lease
    obtain ⟨owner, same⟩ := caught.held holds
    rw [drained.owner] at owner
    rw [drained.generation] at same
    simp [hasLease, owner, same]

theorem Awaits.ends {w : View} {call : Call} (awaits : Awaits w call frame)
    (asked : frame.kind = some .end) :
    call = .finish frame.token ∧ w.lease = none ∧ w.claim = some frame.token := by
  have kinds := Option.some_inj.mp (asked.symm.trans awaits.kind)
  cases call with
  | finish token =>
      obtain ⟨none, same⟩ : w.lease = none ∧ frame.token = token := awaits.told
      refine ⟨congrArg Call.finish same.symm, none, ?_⟩
      unfold View.claim
      rw [awaits.pending, same]
  | hello => cases kinds
  | begin => cases kinds
  | heartbeat => cases kinds
  | write => cases kinds
  | requestDump => cases kinds

/-- A lease that its client gives up ends before the END is answered. -/
theorem holds_ended (asked : frame.kind = some .end) (lease : hasLease index frame.token s = true)
    (held : Holds outside (d.at index (.busy frame)) s) :
    Holds outside (d.at index (.ended frame)) s.released := by
  obtain ⟨owner, same⟩ : s.owner = some index ∧ frame.token = s.generation := by
    simpa [hasLease] using lease
  refine ⟨(follows_released ⟨held.1, Grew.refl s⟩).1, fun bounded => ?_⟩
  have later := lt_next held.1.generation bounded.1
  refine agreed_changed (near_at d index _ _) none later (fun i n w _ caught => ?_)
    (held.2 ⟨Nat.lt_of_succ_lt bounded.1, bounded.2⟩)
  by_cases here : i = index
  · subst here
    obtain ⟨call, awaits⟩ := caught.asked
    obtain ⟨rfl, none, -⟩ := awaits.ends asked
    exact
      { generation := UInt64.le_trans caught.generation (UInt64.le_of_lt later)
        sequence := caught.sequence
        waiting := caught.waiting
        greeted := fun _ => caught.greeted (by simp)
        claim := fun stage => absurd at_stage (stage frame)
        fits := by
          rw [at_stage]
          exact ⟨awaits, same ▸ later⟩ }
  · refine (caught.changed none later fun stage => ?_).near (near_at d index _ _) here
    cases claimed : w.claim with
    | none => rfl
    | some token =>
        have owner' := (caught.claim stage token claimed).1
        rw [owner] at owner'
        exact absurd (Option.some_inj.mp owner').symm here

theorem holds_endLease (asked : frame.kind = some .end)
    (held : Holds outside (d.at index (.busy frame)) s) :
    Holds outside (d.at index (.idle [])) (endLease outside index frame.request frame.token s) := by
  unfold endLease
  by_cases lease : hasLease index frame.token s = true
  · rw [if_pos lease]
    have released : Holds outside (d.at index (.ended frame)) (releaseOwner outside s) :=
      releaseOwner_keeps (stable_holds outside _) (holds_ended asked lease held)
    generalize releaseOwner outside s = later at released
    refine holds_enqueue (near_at d index _ _) (fun g stamp => (Option.some_inj.mp stamp).symm) (by simp)
      (fun t n v w drained _ _ _ caught => ?_) released
    have fits := caught.fits
    rw [at_stage] at fits
    obtain ⟨awaits, before⟩ := fits
    have same : t.generation = later.generation := drained.generation
    rw [receive_answer awaits asked _ (Or.inl rfl)]
    refine ⟨{ w with pending := none, generation := later.generation }, ?_, ?_⟩
    · rw [View.answered]
      refine if_neg ?_
      rintro (wrong | early)
      · exact wrong rfl
      · exact absurd (same ▸ before) (UInt64.not_lt.mpr early)
    · refine { caught with
        generation := ?_
        greeted := fun _ => caught.greeted (by simp)
        claim := fun _ token lease => ?_
        fits := ?_ }
      · rw [same]
        exact UInt64.le_refl _
      · have none : w.lease = none := awaits.told.1
        have held : w.lease = some token := lease
        rw [none] at held
        cases held
      · rw [at_stage]
        exact Or.inl ⟨rfl, rfl⟩
  · rw [if_neg lease]
    refine holds_reply asked (by tauto) (fun t w call drained caught awaits => ?_) held
    refine absurd ?_ lease
    obtain ⟨owner, same⟩ := caught.claim (by simp) _ (awaits.ends asked).2.2
    rw [drained.owner] at owner
    rw [drained.generation] at same
    simp [hasLease, owner, same]

/-- What a client waits on with a WRITE or a REFRESH. -/
theorem Awaits.writes {w : View} {call : Call} (awaits : Awaits w call frame)
    (asked : frame.kind = some .write) : call = .write ∧ w.lease = some frame.token := by
  have kinds := Option.some_inj.mp (asked.symm.trans awaits.kind)
  have told := awaits.told
  cases call <;> first | exact ⟨rfl, told⟩ | cases kinds

theorem Awaits.refreshes {w : View} {call : Call} (awaits : Awaits w call frame)
    (asked : frame.kind = some .refresh) : call = .requestDump := by
  have kinds := Option.some_inj.mp (asked.symm.trans awaits.kind)
  cases call <;> first | rfl | cases kinds

theorem busy_plain (plain : ∀ i frame, d.stage i ≠ .greeting frame)
    (other : ∀ frame, stage ≠ .greeting frame) :
    ∀ i frame, (d.at index stage).stage i ≠ .greeting frame := by
  intro i frame
  by_cases here : i = index
  · subst here
    rw [at_stage]
    exact other frame
  · rw [show (d.at index stage).stage i = d.stage i by simp [Parties.at, here]]
    exact plain i frame

theorem holds_write (honest : Honest outside d.decodes) (plain : ∀ i frame, d.stage i ≠ .greeting frame)
    (settled : d.waiting = fun _ => False) (asked : frame.kind = some .write)
    (held : Holds outside (d.at index (.busy frame)) s) :
    Holds outside (d.at index (.idle []))
      (write outside index frame.request frame.token frame.data s) := by
  have refused {code : UInt32} (known : code = controlBusy ∨ code = controlInvalid) {t : Server}
      (held : Holds outside (d.at index (.busy frame)) t) :
      Holds outside (d.at index (.idle [])) (reply outside index .write frame.request code t) := by
    refine holds_reply asked (by tauto) (fun u w call drained caught awaits => ?_) held
    rw [(awaits.writes asked).1]
    refine if_neg fun ok => ?_
    rcases known with rfl | rfl
    · simp [controlBusy, controlOk] at ok
    · simp [controlInvalid, controlOk] at ok
  unfold write
  split_ifs with denied invalid
  · exact refused (Or.inl rfl) held
  · exact refused (Or.inr rfl) held
  · have executed : Holds outside (d.at index (.busy frame))
        (execute index frame.token frame.data s).next := by
      refine ⟨?_, fun bounded => ?_⟩
      · have authority := by simpa only [Bool.not_eq_true', Bool.not_eq_false] using denied
        exact (follows_next (follows_execute ⟨held.1, Grew.refl s⟩ authority frame.data)).1
      · have agreed := held.2 bounded
        exact ⟨agreed.observation, agreed.known, agreed.taken, agreed.wire,
          agreed.ordered, agreed.genuine, fun i n known => (agreed.connected i n known).congr rfl rfl rfl rfl rfl⟩
    have delivered := (@serves_holds outside (d.at index (.busy frame)) honest
      (busy_plain plain (by simp)) settled).deliver_keeps s.asked frame.data executed
    dsimp only
    generalize deliver outside _ (execute index frame.token frame.data s).next = later at delivered
    have renewed : Holds outside (d.at index (.busy frame)) (if hasLease index frame.token later = true
        then { later.next with idleUntil := outside.now later.asked + leaseIdle } else later) := by
      by_cases lease : hasLease index frame.token later = true
      · rw [if_pos lease]
        exact holds_quiet delivered
          ⟨fun _ => rfl, rfl, rfl, rfl, rfl, rfl, rfl, rfl, rfl⟩
      · rwa [if_neg lease]
    generalize (if hasLease index frame.token later = true
        then { later.next with idleUntil := outside.now later.asked + leaseIdle } else later)
      = last at renewed
    by_cases failed : (outside.command s.asked frame.data).failed = true
    · rw [if_pos failed]
      exact refused (Or.inr rfl) renewed
    · rw [if_neg failed]
      refine holds_reply asked (Or.inl rfl) (fun t w call drained caught awaits => ?_) renewed
      obtain ⟨rfl, lease⟩ := awaits.writes asked
      refine if_neg fun changed => changed.2 ?_
      rw [lease, ← (caught.held lease).2, drained.generation]

/-- A wish for a refresh is nothing to the clients. -/
theorem alike_wish (t : Server) : Alike t (t.modify index fun c => { c with refresh := true }) := by
  refine ⟨fun i => ?_, rfl, rfl, rfl, rfl, rfl, rfl, rfl, rfl⟩
  by_cases here : i = index
  · subst here
    simp [Server.modify]
  · simp [Server.modify, here]

theorem holds_requestRefresh (honest : Honest outside d.decodes)
    (plain : ∀ i frame, d.stage i ≠ .greeting frame) (settled : d.waiting = fun _ => False)
    (asked : frame.kind = some .refresh) (held : Holds outside (d.at index (.busy frame)) s) :
    Holds outside (d.at index (.idle []))
      (requestRefresh outside index frame.request frame.token s) := by
  have answered {code : UInt32} (known : code = controlOk ∨ code = controlBusy) {t : Server}
      (held : Holds outside (d.at index (.busy frame)) t) :
      Holds outside (d.at index (.idle [])) (reply outside index .refresh frame.request code t) := by
    refine holds_reply asked (by tauto) (fun u w call drained caught awaits => ?_) held
    rw [awaits.refreshes asked]
    rfl
  have refused {t : Server} (held : Holds outside (d.at index (.busy frame)) t) :
      Holds outside (d.at index (.idle []))
        (requestRefresh.refused outside index frame.request t) := by
    unfold requestRefresh.refused
    refine answered (Or.inr rfl) ?_
    by_cases gui : (t.clients index).role = controlGui
    · rw [if_pos gui]
      exact holds_quiet held (alike_wish t)
    · rwa [if_neg gui]
  unfold requestRefresh
  dsimp only
  by_cases owned : s.owner ≠ none ∧ (!hasLease index frame.token s) = true
  · rw [if_pos owned]
    exact refused held
  rw [if_neg owned]
  by_cases early : outside.now s.asked < s.refreshUntil
  · rw [if_pos early]
    exact refused ((stable_holds outside _).next held)
  rw [if_neg early]
  have replied := answered (Or.inl rfl) ((stable_holds outside _).next held)
  generalize reply outside index .refresh frame.request controlOk s.next = later at replied
  by_cases fd : (later.clients index).fd ≠ none
  · rw [if_pos fd]
    exact (@serves_holds outside (d.at index (.idle [])) honest (busy_plain plain (by simp))
      settled).refresh_keeps replied
  · rwa [if_neg fd]

/-- A slot changes what no other slot sees. -/
theorem holds_modify {d' : Parties} {change : Client → Client} (near : Near d d' index)
    (same : ∀ c, (change c).fd = c.fd ∧ (change c).queue = c.queue)
    (moves : ∀ n v w, Agreed outside d s → (s.clients index).fd = some n → d.views n = some v →
      Caught d s index w → Caught d' (s.modify index change) index w) (held : Holds outside d s) :
    Holds outside d' (s.modify index change) := by
  have other (i : Slot) (here : i ≠ index) : (s.modify index change).clients i = s.clients i := by
    simp [Server.modify, here]
  have self : (s.modify index change).clients index = change (s.clients index) := by
    simp [Server.modify]
  have fd (i : Slot) : ((s.modify index change).clients i).fd = (s.clients i).fd := by
    by_cases here : i = index
    · subst here
      rw [self, (same _).1]
    · rw [other i here]
  refine ⟨held.1.kept fd rfl rfl rfl rfl rfl rfl, fun bounded => ?_⟩
  have agreed := held.2 bounded
  refine ⟨agreed.observation, fun i n known => ?_, near.taken ▸ agreed.taken, ?_,
    agreed.ordered, near.decodes ▸ agreed.genuine, fun i n known => ?_⟩
  · rw [near.fd]
    exact agreed.known i n (fd i ▸ known)
  · rw [near.views, near.taken]
    exact agreed.wire
  · rw [fd] at known
    have here := agreed.connected i n known
    by_cases at' : i = index
    · subst at'
      have stream : (s.modify i change).stream i n = s.stream i n := by
        rw [Server.stream, Server.stream, self, (same _).2]
        rfl
      refine ⟨stream ▸ here.ordered, stream ▸ here.bounded, ?_, fun v view => ?_⟩
      · rw [stream, near.decodes]
        exact here.genuine
      obtain ⟨w, followed, caught⟩ := here.caught v (near.views ▸ view)
      exact ⟨w, by rw [stream, near.taken]; exact followed, moves n v w agreed known
        (near.views ▸ view) caught⟩
    · refine (here.near near at').congr ?_ (by rw [other i at']) rfl rfl rfl
      rw [Server.stream, Server.stream, other i at']
      rfl

/-- The reply to a HELLO is what its client expects. -/
theorem receive_hello (honest : Honest outside d.decodes) {w : View} (awaits : Awaits w .hello frame)
    (sequence : UInt64) (fits : (Payload.hello outside.hello).length ≤ controlPayload) :
    w.receive outside ⟨.reply .hello, frame.request, controlOk, sequence, .hello outside.hello⟩
      = .ok { w with pending := none, epoch := outside.epoch, generation := sequence } := by
  have plain : ¬ (controlOk ≠ controlOk ∨ outside.hello.name.contains 0 = true) := by
    rintro (wrong | zero)
    · exact wrong rfl
    · have none : outside.hello.name.contains 0 = false := honest.terminated
      rw [none] at zero
      cases zero
  have same : ¬ (outside.hello.pid ≠ outside.pid ∨ outside.hello.version ≠ 1) := by
    rintro (wrong | wrong) <;> exact wrong rfl
  have text : ¬ ((!(ByteArray.mk outside.hello.name.toArray).validateUTF8) = true) := by
    rw [show (ByteArray.mk outside.hello.name.toArray).validateUTF8 = true from honest.text]
    simp
  rw [@View.receive_reply outside w
    ⟨.reply .hello, frame.request, controlOk, sequence, .hello outside.hello⟩ .hello .hello rfl
    awaits.pending fits]
  unfold View.acknowledge
  rw [if_neg, if_neg]
  · unfold View.answered View.handshake
    dsimp only
    rw [if_neg plain, if_neg same, if_neg text]
    rfl
  · rintro ⟨other, -⟩
    exact other rfl
  · rintro (wrong | wrong)
    · exact wrong rfl
    · exact wrong awaits.number

theorem Awaits.greets {w : View} {call : Call} (awaits : Awaits w call frame)
    (asked : frame.kind = some .hello) : call = .hello := by
  have kinds := Option.some_inj.mp (asked.symm.trans awaits.kind)
  cases call <;> first | rfl | cases kinds

theorem holds_hello (honest : Honest outside d.decodes) (asked : frame.kind = some .hello)
    (held : Holds outside (d.at index (.busy frame)) s) :
    Holds outside (d.at index (.idle []))
      (hello outside index frame.request frame.code frame.data s) := by
  unfold hello
  split_ifs
  · exact holds_dropped (near_at d index _ _) held
  · exact holds_dropped (near_at d index _ _) held
  · have greeting : Holds outside (d.at index (.greeting frame)) (s.modify index fun c =>
        { c with role := frame.code, sources := get32 frame.data }) := by
      refine holds_modify (near_at d index _ _) (fun _ => ⟨rfl, rfl⟩) (fun n v w _ _ _ caught => ?_)
        held
      have fits := caught.fits
      rw [at_stage] at fits
      exact
        { generation := caught.generation
          sequence := caught.sequence
          waiting := caught.waiting
          greeted := fun stage => absurd at_stage (stage frame)
          claim := fun _ => caught.claim (by simp)
          fits := by rwa [at_stage] }
    dsimp only
    refine holds_leaseEvent (holds_enqueue (near_at d index _ _)
      (fun g stamp => (Option.some_inj.mp stamp).symm) (by simp)
      (fun t n v w drained fits _ _ caught => ?_) greeting)
    have asks := caught.fits
    rw [at_stage] at asks
    obtain ⟨call, awaits⟩ := asks
    obtain rfl := awaits.greets asked
    refine ⟨_, receive_hello honest awaits _ fits, { caught with
      generation := ?_
      greeted := fun _ _ => ⟨honest.epoch, ?_⟩
      claim := fun _ token lease => caught.held lease
      fits := ?_ }⟩
    · rw [drained.generation]
      exact UInt64.le_refl _
    · have told : frame.data = put32 w.sources := awaits.told
      rw [drained.sources]
      simp [Server.modify, told, get32_put32]
    · rw [at_stage]
      exact Or.inl ⟨rfl, rfl⟩

theorem holds_serve (honest : Honest outside d.decodes) (plain : ∀ i frame, d.stage i ≠ .greeting frame)
    (settled : d.waiting = fun _ => False) (fd : (s.clients index).fd ≠ none)
    (held : Holds outside (d.at index (.busy frame)) s) :
    Holds outside (d.at index (.idle [])) (serve outside index frame s) := by
  unfold serve
  cases asked : frame.kind with
  | none => exact holds_dropped (near_at d index _ _) held
  | some kind =>
      cases kind with
      | hello => exact holds_dropped (near_at d index _ _) held
      | begin => exact holds_beginLease asked held fd
      | «end» => exact holds_endLease asked held
      | keepalive => exact holds_keepalive asked held
      | write => exact holds_write honest plain settled asked held
      | refresh => exact holds_requestRefresh honest plain settled asked held

/-- A request is served to its end, or its connection is closed. -/
theorem holds_dispatch (honest : Honest outside d.decodes)
    (plain : ∀ i frame, d.stage i ≠ .greeting frame) (settled : d.waiting = fun _ => False)
    {packet : Option Frame} (turn : ∀ n v, d.fd index = some n → d.views n = some v →
      ∃ frame, packet = some frame ∧ d.stage index = .idle [frame])
    (held : Holds outside d s) :
    Holds outside (d.at index (.idle [])) (dispatch outside index packet s) := by
  have near (stage : Stage) : Near d (d.at index stage) index :=
    ⟨rfl, rfl, rfl, fun j other => by simp [Parties.at, other], fun _ _ waiting => waiting, rfl⟩
  have ticked : Holds outside d (controlTick outside s) :=
    (serves_holds honest plain settled).controlTick_keeps held
  unfold dispatch
  generalize controlTick outside s = later at ticked
  dsimp only
  by_cases fd : (later.clients index).fd = none
  · rw [if_pos fd]
    exact ⟨ticked.1, fun bounded => agreed_gone (near _) fd (ticked.2 bounded)⟩
  rw [if_neg fd]
  cases packet with
  | none => exact holds_dropped (near _) ticked
  | some frame =>
      dsimp only
      have busy : Holds outside (d.at index (.busy frame))
          (later.modify index fun c => { c with request := frame.request }) := by
        refine holds_modify (near (.busy frame)) (fun _ => ⟨rfl, rfl⟩)
          (fun n v w agreed fd view caught => ?_) ticked
        obtain ⟨_, same, stage⟩ := turn n v (agreed.known index n fd) view
        cases same
        have fits := caught.fits
        rw [stage] at fits
        exact
          { generation := caught.generation
            sequence := caught.sequence
            waiting := caught.waiting
            greeted := fun _ => by
              simpa [Server.modify] using caught.greeted (by simp [stage])
            claim := fun _ => caught.claim (by simp [stage])
            fits := by
              rw [at_stage]
              rcases fits with ⟨-, empty⟩ | ⟨call, frame', one, awaits⟩
              · cases empty
              · cases one
                exact ⟨call, awaits⟩ }
      split_ifs with number kind refused
      · exact holds_dropped (near _) ticked
      · exact holds_hello honest kind busy
      · exact holds_dropped (near_at d index _ _) busy
      · refine holds_serve honest plain settled ?_ busy
        simpa [Server.modify] using fd

theorem holds_receive (honest : Honest outside d.decodes)
    (plain : ∀ i frame, d.stage i ≠ .greeting frame) (settled : d.waiting = fun _ => False)
    {packet : Option Frame} (turn : ∀ n v, d.fd index = some n → d.views n = some v →
      ∃ frame, packet = some frame ∧ d.stage index = .idle [frame])
    (held : Holds outside d s) :
    Holds outside (d.at index (.idle [])) (receive outside index (.packet packet) s) := by
  unfold receive
  by_cases fd : (s.clients index).fd = none
  · rw [if_pos fd]
    refine ⟨held.1, fun bounded => agreed_gone ?_ fd (held.2 bounded)⟩
    exact ⟨rfl, rfl, rfl, fun j other => by simp [Parties.at, other], fun _ _ waiting => waiting, rfl⟩
  · rw [if_neg fd]
    exact holds_dispatch honest plain settled turn held

end Requests

end OscmixDesk.Backend
