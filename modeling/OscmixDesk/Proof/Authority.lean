/-
**Who may write.**

The owner's slot is connected, and every WRITE that was executed came from the owner, or from a GUI while
there was none, with the generation of the moment (`Sound`). The generation counts the leases that began
or ended, modulo `2^64`: between a moment with generation `g` and the execution of an edit that carries
`g`, their number is a multiple of `2^64` (`writeAuthority`). So an edit is stale only once that many have
gone by, and then it is (`staleEdit`).
-/

import Mathlib.Data.List.Induction
import OscmixDesk.Proof.Requests

namespace OscmixDesk.Backend

variable {outside : Outside}

/-! ### The invariant -/

/-- A write of the owner, or of a GUI while there is none, under the generation of the moment. -/
def Authorized (execution : Execution) : Prop :=
  execution.token = execution.generation
    ∧ (execution.owner = some execution.index
      ∨ execution.role = controlGui ∧ execution.owner = none)

/-- What holds at every moment. -/
structure Sound (s : Server) : Prop where
  owner : ∀ i, s.owner = some i → (s.clients i).fd ≠ none
  fresh : ∀ i n, (s.clients i).fd = some n → n < s.connections
  apart : ∀ i j n, (s.clients i).fd = some n → (s.clients j).fd = some n → i = j
  unborn : ∀ n, s.connections ≤ n → s.wires n = []
  generation : s.generation = UInt64.ofNat (1 + s.changes)
  executed : ∀ execution ∈ s.executed, Authorized execution
    ∧ execution.generation = UInt64.ofNat (1 + execution.changes)

/-- Leases, connections, deliveries and executions since a moment. -/
structure Grew (start s : Server) : Prop where
  changes : start.changes ≤ s.changes
  connections : start.connections ≤ s.connections
  broadcasts : start.broadcasts ≤ s.broadcasts
  executed : ∃ added, s.executed = start.executed ++ added
    ∧ ∀ execution ∈ added, start.changes ≤ execution.changes

/-- A sound state after a moment. -/
def Follows (start s : Server) : Prop :=
  Sound s ∧ Grew start s

theorem sound_start : Sound {} where
  owner _ owner := by simp at owner
  fresh _ _ fd := by simp at fd
  apart _ _ _ fd := by simp at fd
  unborn _ _ := rfl
  generation := rfl
  executed _ member := by simp at member

theorem Grew.refl (s : Server) : Grew s s :=
  ⟨le_refl _, le_refl _, le_refl _, [], (List.append_nil _).symm, fun _ member => by simp at member⟩

/-- Where the connections are as they were, soundness is a matter of the lease and the executions. -/
theorem Sound.kept {s t : Server} (sound : Sound s) (fd : ∀ i, (t.clients i).fd = (s.clients i).fd)
    (connections : t.connections = s.connections) (owner : t.owner = s.owner)
    (generation : t.generation = s.generation) (changes : t.changes = s.changes)
    (executed : t.executed = s.executed) (wires : t.wires = s.wires) : Sound t where
  owner i held := by
    rw [fd]
    exact sound.owner i (owner ▸ held)
  fresh i n held := by
    rw [connections]
    exact sound.fresh i n (fd i ▸ held)
  apart i j n one two := sound.apart i j n (fd i ▸ one) (fd j ▸ two)
  unborn := by
    rw [connections, wires]
    exact sound.unborn
  generation := by
    rw [generation, changes]
    exact sound.generation
  executed execution member := sound.executed execution (executed ▸ member)

theorem Follows.kept {start s t : Server} (follows : Follows start s)
    (fd : ∀ i, (t.clients i).fd = (s.clients i).fd) (connections : t.connections = s.connections)
    (owner : t.owner = s.owner) (generation : t.generation = s.generation)
    (changes : t.changes = s.changes) (executed : t.executed = s.executed)
    (wires : t.wires = s.wires) (broadcasts : s.broadcasts ≤ t.broadcasts) : Follows start t := by
  refine ⟨follows.1.kept fd connections owner generation changes executed wires, ?_, ?_,
    follows.2.broadcasts.trans broadcasts, ?_⟩
  · rw [changes]
    exact follows.2.changes
  · rw [connections]
    exact follows.2.connections
  · rw [executed]
    exact follows.2.executed

/-- A slot changes, and not its connection. -/
theorem Follows.modify {start s : Server} (follows : Follows start s) (index : Slot)
    {change : Client → Client} (same : ∀ c, (change c).fd = c.fd) :
    Follows start (s.modify index change) := by
  refine follows.kept (fun i => ?_) rfl rfl rfl rfl rfl rfl (le_refl _)
  by_cases at' : i = index
  · subst at'
    simp [Server.modify, same]
  · simp [Server.modify, Function.update_of_ne at']

theorem Follows.push {start s : Server} (follows : Follows start s) (index : Slot) (packet : Packet) :
    Follows start (s.push index packet) :=
  follows.modify index fun _ => rfl

/-- The connections that stay were there before. -/
theorem closeClient_fd (index i : Slot) (s : Server) :
    ((closeClient index s).clients i).fd = if i = index then none else (s.clients i).fd := by
  by_cases same : i = index
  · subst same
    rw [if_pos rfl]
    exact closeClient_drops s i
  · rw [if_neg same]
    unfold closeClient
    cases (s.clients index).fd with
    | none => rfl
    | some _ => simp [Server.modify, Function.update_of_ne same]

theorem closeClient_rest (index : Slot) (s : Server) :
    (closeClient index s).connections = s.connections
      ∧ (closeClient index s).generation = s.generation
      ∧ (closeClient index s).changes = s.changes
      ∧ (closeClient index s).executed = s.executed
      ∧ (closeClient index s).wires = s.wires
      ∧ (closeClient index s).broadcasts = s.broadcasts := by
  unfold closeClient
  cases (s.clients index).fd <;> exact ⟨rfl, rfl, rfl, rfl, rfl, rfl⟩

/-- The next lease, or the end of one, has the next generation. -/
theorem next_generation {changes : ℕ} {generation : UInt64}
    (known : generation = UInt64.ofNat (1 + changes)) :
    generation + 1 = UInt64.ofNat (1 + (changes + 1)) := by
  rw [known, ← Nat.add_assoc, UInt64.ofNat_add (1 + changes) 1]
  rfl

theorem follows_close {start s : Server} {index : Slot} (follows : Follows start s)
    (owner : s.owner ≠ some index) : Follows start (closeClient index s) := by
  obtain ⟨connections, generation, changes, executed, wires, broadcasts⟩ := closeClient_rest index s
  refine ⟨⟨fun i held => ?_, fun i n fd => ?_, fun i j n one two => ?_, ?_, ?_, ?_⟩, ?_, ?_, ?_, ?_⟩
  · rw [closeClient_owner] at held
    rw [closeClient_fd, if_neg fun same : i = index => owner (same ▸ held)]
    exact follows.1.owner i held
  · rw [closeClient_fd] at fd
    rw [connections]
    exact follows.1.fresh i n (by split_ifs at fd; exact fd)
  · rw [closeClient_fd] at one two
    exact follows.1.apart i j n (by split_ifs at one; exact one) (by split_ifs at two; exact two)
  · rw [connections, wires]
    exact follows.1.unborn
  · rw [generation, changes]
    exact follows.1.generation
  · rw [executed]
    exact follows.1.executed
  · rw [changes]
    exact follows.2.changes
  · rw [connections]
    exact follows.2.connections
  · rw [broadcasts]
    exact follows.2.broadcasts
  · rw [executed]
    exact follows.2.executed

theorem follows_released {start s : Server} (follows : Follows start s) :
    Follows start s.released where
  left :=
    { owner := fun i held => by simp [Server.released] at held
      fresh := follows.1.fresh
      apart := follows.1.apart
      unborn := follows.1.unborn
      generation := next_generation follows.1.generation
      executed := follows.1.executed }
  right := { follows.2 with changes := follows.2.changes.trans (Nat.le_succ _) }

theorem closeClient_released (index : Slot) (s : Server) :
    closeClient index s.released = (closeClient index s).released := by
  cases fd : (s.clients index).fd <;> simp [closeClient, Server.released, Server.modify, fd]

theorem follows_took {start s : Server} {index : Slot} {connection : ℕ} {packet : Packet}
    {rest : List Packet} (follows : Follows start s) (fd : (s.clients index).fd = some connection) :
    Follows start (s.took index connection packet rest) := by
  have same := (Drained.took index connection packet rest s).fd
  refine ⟨⟨fun i held => ?_, fun i n known => ?_, fun i j n one two => ?_, fun n new => ?_,
    follows.1.generation, follows.1.executed⟩, follows.2.changes, follows.2.connections,
    follows.2.broadcasts, follows.2.executed⟩
  · rw [same]
    exact follows.1.owner i held
  · exact follows.1.fresh i n (same i ▸ known)
  · exact follows.1.apart i j n (same i ▸ one) (same j ▸ two)
  · have other : n ≠ connection := by
      rintro rfl
      exact absurd (follows.1.fresh index n fd) (not_lt.mpr new)
    show Function.update s.wires connection _ n = []
    rw [Function.update_of_ne other]
    exact follows.1.unborn n new

theorem stable_follows (start : Server) : Stable (Follows start) where
  asks s held := held.kept (fun _ => rfl) rfl rfl rfl rfl rfl rfl (le_refl _)
  took s index connection packet rest held fd _ := follows_took held fd
  close s index held _ owner := follows_close held owner
  lose s index held fd owner := by
    rw [← closeClient_released]
    exact follows_close (follows_released held) (by simp [Server.released])
  event s index held _ _ := held.push index _

/-! ### Requests keep it -/

section Requests

variable {start s : Server}

/-- A lease that begins is of a connected slot. -/
theorem follows_begun (follows : Follows start s) {index : Slot} (fd : (s.clients index).fd ≠ none) :
    Follows start { s with
      owner := some index, generation := s.generation + 1, changes := s.changes + 1 } where
  left :=
    { owner := fun i held => by
        obtain rfl : index = i := by simpa using held
        exact fd
      fresh := follows.1.fresh
      apart := follows.1.apart
      unborn := follows.1.unborn
      generation := next_generation follows.1.generation
      executed := follows.1.executed }
  right := { follows.2 with changes := follows.2.changes.trans (Nat.le_succ _) }

/-- An execution under authority is one more of its kind. -/
theorem follows_execute (follows : Follows start s) {index : Slot} {token : UInt64}
    (authority : authorized index token s = true) (data : List UInt8) :
    Follows start (execute index token data s) := by
  have allowed : token = s.generation ∧ (s.owner = some index
      ∨ (s.clients index).role = controlGui ∧ s.owner = none) := by
    rcases Bool.or_eq_true_iff.mp authority with lease | gui
    · have ⟨owner, same⟩ : s.owner = some index ∧ token = s.generation := by
        simpa [hasLease] using lease
      exact ⟨same, Or.inl owner⟩
    · have ⟨role, owner, same⟩ := of_decide_eq_true gui
      exact ⟨same, Or.inr ⟨role, owner⟩⟩
  obtain ⟨sound, changes, connections, broadcasts, added, same, later⟩ := follows
  refine ⟨{ sound with executed := fun execution member => ?_ }, changes, connections, broadcasts, ?_⟩
  · rcases List.mem_append.mp member with old | new
    · exact sound.executed execution old
    · obtain rfl := List.mem_singleton.mp new
      exact ⟨allowed, sound.generation⟩
  · refine ⟨added ++ [⟨index, (s.clients index).role, token, s.owner, s.generation, s.changes, data⟩],
      ?_, ?_⟩
    · rw [← List.append_assoc, ← same]
      rfl
    · intro execution member
      rcases List.mem_append.mp member with old | new
      · exact later execution old
      · obtain rfl := List.mem_singleton.mp new
        exact changes

theorem handles_follows (start : Server) : Handles (Follows start) where
  toStable := stable_follows start
  told _ index packet held _ _ := held.push index packet
  counts _ held := held.kept (fun _ => rfl) rfl rfl rfl rfl rfl rfl (Nat.le_succ _)
  moves _ index _ held same := held.modify index fun c => (same c).1
  begins _ _ held fd _ := follows_begun held fd
  ends _ held := follows_released held

theorem grants_follows (start : Server) : Grants (Follows start) := fun _ index _ held _ =>
  held.push index _

theorem greets_follows (start : Server) : Greets (Follows start) := fun _ index _ _ held _ =>
  held.modify index fun _ => rfl

theorem timeless_follows (start : Server) : Timeless (Follows start) := fun _ _ _ held =>
  held.kept (fun _ => rfl) rfl rfl rfl rfl rfl rfl (le_refl _)

theorem serves_follows (outside : Outside) (start : Server) : Serves outside (Follows start) where
  toStable := stable_follows start
  opens _ _ held := held.kept (fun _ => rfl) rfl rfl rfl rfl rfl rfl (le_refl _)
  closes _ held := held.kept (fun _ => rfl) rfl rfl rfl rfl rfl rfl (le_refl _)
  window _ index _ held _ _ _ := held.push index _
  handled _ _ delivery _ _ held := (handles_follows start).broadcast_keeps delivery.1 delivery.2 held

theorem follows_next (follows : Follows start s) : Follows start s.next :=
  (stable_follows start).next follows

/-- A new connection takes a number that no other has. -/
theorem follows_accepted (follows : Follows start s) {i : Slot} (free : (s.clients i).fd = none)
    (accepted : ℚ) : Follows start { s.next.next.modify i fun _ =>
      { fd := some s.connections, accepted := accepted } with connections := s.connections + 1 } := by
  have fd (j : Slot) : ((s.next.next.modify i fun _ =>
      { fd := some s.connections, accepted := accepted }).clients j).fd
        = if j = i then some s.connections else (s.clients j).fd := by
    by_cases same : j = i
    · subst same
      simp [Server.modify]
    · simp [Server.modify, same]
  refine ⟨⟨fun j held => ?_, fun j n known => ?_, fun j k n one two => ?_,
    fun n new => follows.1.unborn n (Nat.le_of_succ_le new), follows.1.generation, follows.1.executed⟩,
    { follows.2 with connections := follows.2.connections.trans (Nat.le_succ _) }⟩
  · rw [fd]
    split_ifs
    · simp
    · exact follows.1.owner j held
  · rw [fd] at known
    split_ifs at known
    · obtain rfl := Option.some_inj.mp known
      exact Nat.lt_succ_self _
    · exact Nat.lt_succ_of_lt (follows.1.fresh j n known)
  · rw [fd] at one two
    split_ifs at one two with first second second
    · rw [first, second]
    · obtain rfl := Option.some_inj.mp one
      exact absurd (follows.1.fresh k _ two) (lt_irrefl _)
    · obtain rfl := Option.some_inj.mp two
      exact absurd (follows.1.fresh j _ one) (lt_irrefl _)
    · exact follows.1.apart j k n one two

theorem follows_acceptClient (follows : Follows start s) : Follows start (acceptClient outside s) := by
  unfold acceptClient
  split_ifs
  · exact follows_next follows
  · cases found : (List.finRange 16).find? fun i => decide ((s.clients i).fd = none) with
    | none =>
        exact ⟨{ follows.1 with
            fresh := fun i n fd => Nat.lt_succ_of_lt (follows.1.fresh i n fd)
            unborn := fun n new => follows.1.unborn n (Nat.le_of_succ_le new) },
          { follows.2 with connections := follows.2.connections.trans (Nat.le_succ _) }⟩
    | some i => exact follows_accepted follows (by simpa using List.find?_some found) _

theorem always_follows (outside : Outside) (start : Server) : Always outside (Follows start) where
  toHandles := handles_follows start
  opens := (serves_follows outside start).opens
  closes := (serves_follows outside start).closes
  window := (serves_follows outside start).window
  greets := greets_follows start
  grants := grants_follows start
  timeless := timeless_follows start
  executes _ _ _ data held authority := follows_execute held authority data
  accepts _ held := follows_acceptClient held

theorem follows_act (follows : Follows start s) (action : Action) :
    Follows start (act outside s action) :=
  (always_follows outside start).act_keeps action follows

theorem follows_run (follows : Follows start s) (actions : List Action) :
    Follows start (run outside actions s) :=
  List.foldlRecOn _ _ follows fun _ held action _ => follows_act held action

end Requests

/-! ### A round of the loop is a run -/

theorem run_append (before after : List Action) (s : Server) :
    run outside (before ++ after) s = run outside after (run outside before s) :=
  List.foldl_append

/-- What every action of a run keeps, after what was done before it. -/
theorem run_keeps {holds : Server → Prop} {actions : List Action} (start : holds {})
    (step : ∀ before action after, actions = before ++ action :: after →
      holds (run outside before {}) → holds (act outside (run outside before {}) action)) :
    holds (run outside actions {}) := by
  have prefixes (done rest : List Action) (whole : actions = done ++ rest) :
      holds (run outside done {}) := by
    induction done using List.reverseRecOn generalizing rest with
    | nil => exact start
    | append_singleton before action ih =>
        rw [List.append_assoc, List.singleton_append] at whole
        rw [run_append]
        exact step before action rest whole (ih (action :: rest) whole)
  exact prefixes actions [] (List.append_nil actions).symm

/-- What a slot is given in a round is a run of its own. -/
theorem serveSlot_run (index : Slot) (polled : Polled) (s : Server) :
    ∃ actions, serveSlot outside index polled s = run outside actions s := by
  unfold serveSlot
  dsimp only
  by_cases other : (s.clients index).fd = none ∨ (s.clients index).fd ≠ polled.fd
  · rw [if_pos other]
    exact ⟨[], rfl⟩
  rw [if_neg other]
  by_cases lost : polled.hangUp = true
  · rw [if_pos lost]
    exact ⟨[.hangUp index], rfl⟩
  rw [if_neg lost]
  have ⟨first, same⟩ : ∃ actions, (if polled.writable = true then
      flush outside (disconnect outside) index s else s) = run outside actions s := by
    by_cases writable : polled.writable = true
    · rw [if_pos writable]
      exact ⟨[.writable index], rfl⟩
    · rw [if_neg writable]
      exact ⟨[], rfl⟩
  rw [same]
  cases polled.readable with
  | none => exact ⟨first, rfl⟩
  | some received =>
      refine ⟨first ++ [.receive index received], ?_⟩
      rw [run_append]
      rfl

/-- A round of `control_dispatch` is a run, so what holds along every run holds inside every round. -/
theorem controlDispatch_run (incoming : Bool) (polled : Slot → Polled) (s : Server) :
    ∃ actions, controlDispatch outside incoming polled s = run outside actions s := by
  have loop (slots : List Slot) (t : Server) : ∃ actions,
      slots.foldl (fun s i => serveSlot outside i (polled i) s) t = run outside actions t := by
    induction slots generalizing t with
    | nil => exact ⟨[], rfl⟩
    | cons i rest ih =>
        obtain ⟨first, one⟩ := @serveSlot_run outside i (polled i) t
        obtain ⟨later, others⟩ := ih (run outside first t)
        refine ⟨first ++ later, ?_⟩
        rw [List.foldl_cons, one, others, run_append]
  unfold controlDispatch
  dsimp only
  have ⟨first, same⟩ : ∃ actions, (if incoming = true then acceptClient outside (controlTick outside s)
      else controlTick outside s) = run outside actions s := by
    by_cases new : incoming = true
    · rw [if_pos new]
      exact ⟨[.tick, .accept], rfl⟩
    · rw [if_neg new]
      exact ⟨[.tick], rfl⟩
  rw [same]
  obtain ⟨later, others⟩ := loop (List.finRange 16) (run outside first s)
  exact ⟨first ++ later, by rw [others, run_append]⟩

/-! ### Authority -/

/-- Equal generations are a multiple of `2^64` leases apart. -/
theorem changes_apart {first last : ℕ} (before : first ≤ last)
    (same : UInt64.ofNat (1 + first) = UInt64.ofNat (1 + last)) :
    first = last ∨ first + 2 ^ 64 ≤ last := by
  have values := congrArg UInt64.toNat same
  rw [UInt64.toNat_ofNat', UInt64.toNat_ofNat'] at values
  omega

/-- At every moment of every run the owner is one connected client, every WRITE was executed under
authority, and no GUI edit was executed after another lease began or ended than the one of its token,
unless `2^64` of them did. -/
theorem writeAuthority (outside : Outside) (before after : List Action) :
    (∀ i, (run outside (before ++ after) {}).owner = some i →
        ((run outside (before ++ after) {}).clients i).fd ≠ none)
      ∧ (∀ i j n, ((run outside (before ++ after) {}).clients i).fd = some n →
        ((run outside (before ++ after) {}).clients j).fd = some n → i = j)
      ∧ (∀ execution ∈ (run outside (before ++ after) {}).executed, Authorized execution)
      ∧ ∃ added, (run outside (before ++ after) {}).executed
          = (run outside before {}).executed ++ added
        ∧ ∀ execution ∈ added, execution.role = controlGui →
          execution.token = (run outside before {}).generation →
          execution.changes = (run outside before {}).changes
            ∨ (run outside before {}).changes + 2 ^ 64 ≤ execution.changes := by
  have first : Follows {} (run outside before {}) :=
    follows_run ⟨sound_start, Grew.refl _⟩ before
  have last : Follows (run outside before {}) (run outside (before ++ after) {}) := by
    rw [run_append]
    exact follows_run ⟨first.1, Grew.refl _⟩ after
  obtain ⟨sound, -, -, -, added, same, later⟩ := last
  refine ⟨sound.owner, sound.apart, fun execution member => (sound.executed execution member).1,
    added, same, fun execution member _ token => ?_⟩
  have known := sound.executed execution (same ▸ List.mem_append_right _ member)
  have generations : UInt64.ofNat (1 + (run outside before {}).changes)
      = UInt64.ofNat (1 + execution.changes) := by
    rw [← first.1.generation, ← known.2, ← token, known.1.1]
  exact (changes_apart (later execution member) generations).imp Eq.symm id

/-! ### A stale edit -/

/-- The slots of the first two connections. -/
def firstSlot : Slot := 0

def secondSlot : Slot := 1

/-- A process whose clock stands still and whose packets go out at once. -/
def prompt : Outside where
  now _ := 0
  send _ := .taken
  malloc _ := true
  command _ _ := ⟨[], false⟩
  accepted _ := true
  reads _ := true
  epoch := List.replicate 16 7
  pid := 1
  deviceName := [85]

/-- One slot is in use. -/
def lone (client : Client) (base : Server) : Server :=
  { base with clients := Function.update (fun _ => {}) 0 client }

/-- A packet went out to a connection. -/
def told (connection : ℕ) (packet : Packet) (base : Server) : Server :=
  { base with
    asked := base.asked + 2
    wires := Function.update base.wires connection (base.wires connection ++ [packet]) }

/-- A client with nothing in its queue. -/
structure Settled (client : Client) (connection : ℕ) : Prop where
  fd : client.fd = some connection
  queue : client.queue = []
  bytes : client.bytes = 0
  accepted : client.accepted = 0
  refresh : client.refresh = false

section Prompt

variable {drop : Slot → Server → Server} {client : Client} {connection : ℕ} {base : Server}

@[simp] theorem lone_clients : (lone client base).clients 0 = client := by simp [lone]

theorem lone_others {i : Slot} (other : i ≠ 0) : (lone client base).clients i = {} := by
  simp [lone, Function.update_of_ne other]

@[simp] theorem lone_modify (change : Client → Client) :
    (lone client base).modify 0 change = lone (change client) base := by
  simp [lone, Server.modify]

/-- The packet is queued and taken. -/
theorem enqueue_prompt (settled : Settled client connection) {packet : Packet}
    (fits : packet.payload.length ≤ controlPayload) :
    enqueue prompt drop 0 packet (lone client base) = lone client (told connection packet base) := by
  obtain ⟨fd, queue, bytes, -, -⟩ := settled
  have flushed : flush prompt drop 0 (lone client base) = lone client base := by
    unfold flush
    rw [lone_clients, fd, queue]
    rfl
  have room : ¬ ((decide (controlPayload < packet.payload.length)
      || client.queue.length == queuePackets
      || decide (queueBytes < client.bytes + controlHeader + packet.payload.length)) = true) := by
    rw [queue, bytes]
    simp only [Bool.or_eq_true, decide_eq_true_eq, beq_iff_eq, List.length_nil]
    unfold controlPayload queuePackets queueBytes controlHeader at *
    omega
  have same : { client with queue := [], bytes := 0 + packet.len - packet.len } = client := by
    rw [Nat.add_sub_cancel, ← queue, ← bytes]
  unfold enqueue
  rw [flushed]
  dsimp only
  rw [lone_clients, if_neg (by simp [fd]), if_neg room, if_pos (show prompt.malloc _ = true from rfl)]
  unfold flush
  simp only [Server.push, Server.next, lone, Server.modify, Function.update_self, fd, queue, bytes,
    List.nil_append, flushQueue, prompt, Server.took, told, Function.update_idem]
  rw [fd] at same
  rw [same]

/-- A loop over the slots that passes free ones over sees the first one only. -/
theorem foldl_lone {step : Server → Slot → Server} (free : ∀ s i, (s.clients i).fd = none → step s i = s)
    {after : Client} {base' : Server} (first : step (lone client base) 0 = lone after base') :
    (List.finRange 16).foldl step (lone client base) = lone after base' := by
  rw [show List.finRange 16 = 0 :: (List.finRange 15).map Fin.succ from by decide, List.foldl_cons,
    first]
  have others : ∀ i ∈ (List.finRange 15).map Fin.succ, i ≠ 0 := fun i member => by
    obtain ⟨j, _, rfl⟩ := List.mem_map.mp member
    exact Fin.succ_ne_zero j
  generalize (List.finRange 15).map Fin.succ = slots at others
  induction slots with
  | nil => rfl
  | cons i rest ih =>
      rw [List.foldl_cons, free _ i (by rw [lone_others (others i List.mem_cons_self)])]
      exact ih fun j member => others j (List.mem_cons_of_mem i member)

theorem stateChanged_prompt (settled : Settled client connection) (role : client.role ≠ 0) :
    stateChanged prompt drop (lone client base)
      = lone client (told connection (lone client base).leaseEvent base) := by
  refine foldl_lone (fun s i free => if_neg fun told => told.1 free) ?_
  rw [lone_clients, if_pos ⟨by simp [settled.fd], role⟩]
  exact enqueue_prompt settled (Nat.zero_le _)

theorem stateChanged_deserted (fd : client.fd = none) :
    stateChanged prompt drop (lone client base) = lone client base := by
  refine foldl_lone (fun s i free => if_neg fun told => told.1 free) ?_
  rw [if_neg fun told => told.1 (by rw [lone_clients, fd])]

/-- Nothing expires while the clock stands still. -/
theorem controlTick_prompt (settled : Settled client connection)
    (lease : base.owner = none ∨ 0 < base.idleUntil ∧ 0 < base.hardUntil)
    (window : base.refreshing = false) :
    controlTick prompt (lone client base) = lone client base.next := by
  have slots (slots : List Slot) :
      tickClients prompt 0 slots (lone client base.next) = lone client base.next := by
    induction slots with
    | nil => rfl
    | cons i rest ih =>
        unfold tickClients
        by_cases first : i = 0
        · subst first
          rw [lone_clients, if_neg (by simp [settled.fd]), if_neg, if_neg, ih]
          · simp [settled.refresh]
          · simp [settled.accepted, helloTimeout, show ¬ (3 : ℚ) ≤ 0 from by decide]
        · rw [lone_others first, if_pos rfl, ih]
  have expired : expireLease prompt 0 (lone client base.next) = lone client base.next := by
    unfold expireLease
    cases owner : (lone client base.next).owner with
    | none => rfl
    | some index =>
        have timed : 0 < base.idleUntil ∧ 0 < base.hardUntil := lease.resolve_left fun free => by
          have some' : base.owner = some index := owner
          rw [free] at some'
          cases some'
        have late : ¬ (0 ≥ base.idleUntil ∨ 0 ≥ base.hardUntil) :=
          not_or.mpr ⟨Rat.not_le.mpr timed.1, Rat.not_le.mpr timed.2⟩
        exact if_neg late
  unfold controlTick
  show tickClients prompt 0 _ (closeWindow prompt 0 (expireLease prompt 0 (lone client base.next))) = _
  rw [expired]
  unfold closeWindow
  rw [if_neg (by simp [lone, Server.next, window]), slots]

/-- What passes between two moments of one lease. -/
structure Calm (base base' : Server) : Prop where
  owner : base'.owner = base.owner
  generation : base'.generation = base.generation
  changes : base'.changes = base.changes
  executed : base'.executed = base.executed
  refreshing : base'.refreshing = base.refreshing
  broadcasts : base'.broadcasts = base.broadcasts

theorem calm_told (connection : ℕ) (packet : Packet) (base : Server) :
    Calm base (told connection packet base) :=
  ⟨rfl, rfl, rfl, rfl, rfl, rfl⟩

theorem Calm.trans {first second third : Server} (one : Calm first second) (two : Calm second third) :
    Calm first third :=
  ⟨two.owner.trans one.owner, two.generation.trans one.generation, two.changes.trans one.changes,
    two.executed.trans one.executed, two.refreshing.trans one.refreshing,
    two.broadcasts.trans one.broadcasts⟩

/-- A request in its turn, past the clock. -/
theorem receive_prompt (settled : Settled client connection)
    (lease : base.owner = none ∨ 0 < base.idleUntil ∧ 0 < base.hardUntil)
    (window : base.refreshing = false) (frame : Frame) (known : frame.kind ≠ some .hello)
    (plain : frame.code = 0 ∧ (frame.kind = some .write ∨ frame.data = [])) (role : client.role ≠ 0)
    (turn : client.request = 1 ∧ frame.request = 2) :
    receive prompt 0 (.packet (some frame)) (lone client base)
      = serve prompt 0 frame (lone { client with request := 2 } base.next) := by
  have fd : client.fd ≠ none := by simp [settled.fd]
  unfold receive
  rw [lone_clients, if_neg fd]
  dsimp only
  unfold dispatch
  rw [controlTick_prompt settled lease window]
  dsimp only
  rw [lone_clients, if_neg fd, if_neg (by simp [turn.1, turn.2]), if_neg known, lone_modify,
    lone_clients, turn.2, if_neg]
  rintro (none | coded | long)
  · exact role none
  · exact coded plain.1
  · exact plain.2.elim long.1 long.2

/-- A new connection and its HELLO. -/
def greeting (role : UInt32) : List Action :=
  [.accept, .receive 0 (.packet (some ⟨some .hello, 1, role, 0, [0, 0, 0, 1]⟩))]

theorem accept_prompt (fd : client.fd = none) :
    acceptClient prompt (lone client base) = lone { fd := some base.connections }
      { base.next.next with connections := base.connections + 1 } := by
  have first : (List.finRange 16).find? (fun i => ((lone client base).clients i).fd = none)
      = some 0 := by
    rw [show List.finRange 16 = 0 :: (List.finRange 15).map Fin.succ from by decide]
    simp [fd]
  unfold acceptClient
  rw [if_neg (by simp [prompt]), first]
  simp [lone, Server.next, Server.modify, prompt]

/-- What a new connection is told. -/
def greeted (base : Server) : List Packet :=
  [⟨.reply .hello, 1, controlOk, base.generation, .hello prompt.hello⟩, base.leaseEvent]

theorem hello_prompt {role : UInt32} (known : role = controlDesk ∨ role = controlGui)
    (settled : Settled client connection) (fresh : client.role = 0) :
    ∃ base', hello prompt 0 1 role [0, 0, 0, 1] (lone client base)
        = lone { client with role := role, sources := 1 } base' ∧ Calm base base'
      ∧ base'.wires connection = base.wires connection ++ greeted base := by
  have settled' : Settled { client with role := role, sources := 1 } connection := { settled with }
  have named : ¬ (client.role ≠ 0 ∨ [(0 : UInt8), 0, 0, 1].length ≠ 4 ∨ role < controlDesk
      ∨ controlReader < role) := by
    rcases known with rfl | rfl <;> simp [fresh, controlDesk, controlGui, controlReader]
  refine ⟨told connection (lone client base).leaseEvent (told connection
      ⟨.reply .hello, 1, controlOk, base.generation, .hello prompt.hello⟩ base), ?_,
    (calm_told connection _ base).trans (calm_told connection _ _), by simp [told, greeted]; rfl⟩
  unfold hello
  rw [lone_clients, if_neg named, if_neg (by decide)]
  dsimp only
  rw [show get32 [0, 0, 0, 1] = 1 from by decide, lone_modify, enqueue_prompt settled',
    enqueue_prompt settled' (Nat.zero_le _)]
  · rfl
  · show 26 ≤ controlPayload
    decide

theorem greeting_prompt {role : UInt32} (known : role = controlDesk ∨ role = controlGui)
    (fd : client.fd = none) (owner : base.owner = none) (window : base.refreshing = false) :
    ∃ base', run prompt (greeting role) (lone client base)
        = lone { fd := some base.connections, role := role, sources := 1, request := 1 } base'
      ∧ Calm base base'
      ∧ base'.wires base.connections = base.wires base.connections ++ greeted base := by
  have settled (request : UInt32) :
      Settled { fd := some base.connections, request := request } base.connections :=
    ⟨rfl, rfl, rfl, rfl, rfl⟩
  obtain ⟨base', same, calm, wires⟩ := @hello_prompt { fd := some base.connections, request := 1 }
    base.connections { base.next.next with connections := base.connections + 1 }.next role known
    (settled 1) rfl
  refine ⟨base', ?_, ⟨calm.owner, calm.generation, calm.changes, calm.executed, calm.refreshing,
    calm.broadcasts⟩, wires⟩
  rw [← same, run, greeting, List.foldl_cons, List.foldl_cons, List.foldl_nil, act, accept_prompt fd,
    act, receive]
  rw [lone_clients, if_neg (by simp)]
  dsimp only
  unfold dispatch
  rw [controlTick_prompt (settled 0)]
  · dsimp only
    rw [lone_clients, if_neg (by simp), if_neg (by simp), if_pos rfl, lone_modify]
  · exact Or.inl owner
  · exact window

/-- The state in which a lease begins. -/
def beginning (base : Server) : Server :=
  { base.next.next with
    owner := some 0, generation := base.generation + 1, changes := base.changes + 1,
    hardUntil := 0 + leaseTotal, idleUntil := 0 + leaseIdle }

theorem begin_prompt (settled : Settled client connection) (role : client.role = controlDesk)
    (owner : base.owner = none) (request : UInt32) :
    ∃ base', beginLease prompt 0 request (lone client base) = lone client base'
      ∧ base'.owner = some 0 ∧ base'.changes = base.changes + 1 ∧ base'.executed = base.executed
      ∧ base'.refreshing = base.refreshing ∧ base'.broadcasts = base.broadcasts
      ∧ base'.wires connection = base.wires connection
        ++ [⟨.reply .begin, request, controlOk, base.generation + 1, .none⟩,
          ⟨.event, 0, controlBusy, base.generation + 1, .none⟩] := by
  refine ⟨told connection ⟨.event, 0, controlBusy, base.generation + 1, .none⟩
    (told connection ⟨.reply .begin, request, controlOk, base.generation + 1, .none⟩
      (beginning base)), ?_, rfl, rfl, rfl, rfl, rfl, by simp [told]; rfl⟩
  rw [beginLease, lone_clients, if_neg (by simp [role]), if_neg (by simpa [lone] using owner)]
  show stateChanged prompt (disconnect prompt) (enqueue prompt (disconnect prompt) 0
    ⟨.reply .begin, request, controlOk, base.generation + 1, .none⟩ (lone client (beginning base))) = _
  rw [enqueue_prompt settled (Nat.zero_le _),
    stateChanged_prompt settled (by simp [role, controlDesk])]
  rfl

/-- The connection that holds the lease is lost. -/
theorem hangUp_prompt (fd : client.fd = some connection) (owner : base.owner = some 0) :
    disconnect prompt 0 (lone client base)
      = lone { client with fd := none, queue := [], bytes := 0, refresh := false } base.released := by
  have closed : closeClient 0 (lone client base)
      = lone { client with fd := none, queue := [], bytes := 0, refresh := false } base := by
    unfold closeClient
    rw [lone_clients, fd]
    exact lone_modify _
  have owner' : (lone client base).owner = some 0 := owner
  unfold disconnect
  simp only [lone_clients, fd, owner', if_true, closed]
  show stateChanged prompt closeClient
    (lone { client with fd := none, queue := [], bytes := 0, refresh := false } base.released) = _
  exact stateChanged_deserted rfl

/-- The execution of an edit. -/
def edited (base : Server) : Server :=
  { base.next with executed := base.executed ++
      [⟨0, controlGui, 1, none, base.generation, base.changes, [47, 97, 0, 0]⟩] }

/-- An edit with the generation of the moment is executed. -/
theorem write_prompt (settled : Settled client connection) (role : client.role = controlGui)
    (owner : base.owner = none) (generation : base.generation = 1) :
    write prompt 0 2 1 [47, 97, 0, 0] (lone client base)
      = lone client (told connection ⟨.reply .write, 2, controlOk, base.generation, .none⟩
        (edited base)) := by
  have executed : (execute 0 1 [47, 97, 0, 0] (lone client base)).next
      = lone client (edited base) := by
    simp [execute, edited, lone, Server.next, role, owner]
  have edit : ¬ ((!(hasLease 0 1 (lone client base) || decide (((lone client base).clients 0).role
      = controlGui ∧ (lone client base).owner = none ∧ 1 = (lone client base).generation))) = true) := by
    simp [hasLease, lone, role, owner, generation]
  have lease : ¬ (hasLease 0 1 (lone client (edited base)) = true) := by
    simp [hasLease, lone, edited, Server.next, owner]
  unfold write
  rw [if_neg edit, if_neg (by decide)]
  dsimp only
  rw [executed]
  show reply prompt 0 .write 2 controlOk (if hasLease 0 1 (lone client (edited base)) = true then _
    else lone client (edited base)) = _
  rw [if_neg lease]
  exact enqueue_prompt settled (Nat.zero_le _)

/-- A lease that is taken and lost. -/
def leaseCycle : List Action :=
  greeting controlDesk ++ [.receive 0 (.packet (some ⟨some .begin, 2, 0, 0, []⟩)), .hangUp 0]

/-- Nobody is connected, and so many leases have come and gone. -/
structure Deserted (s : Server) (leases : ℕ) : Prop where
  alone : ∃ client base, s = lone client base ∧ client.fd = none
  owner : s.owner = none
  refreshing : s.refreshing = false
  changes : s.changes = 2 * leases
  executed : s.executed = []

theorem leaseCycle_prompt {s : Server} {leases : ℕ} (deserted : Deserted s leases) :
    Deserted (run prompt leaseCycle s) (leases + 1) := by
  obtain ⟨⟨client, base, rfl, fd⟩, owner, window, changes, executed⟩ := deserted
  obtain ⟨base', same, calm, -⟩ := @greeting_prompt client base controlDesk (Or.inl rfl) fd owner window
  have settled (request : UInt32) : Settled
      { fd := some base.connections, role := controlDesk, sources := 1, request := request }
      base.connections := ⟨rfl, rfl, rfl, rfl, rfl⟩
  have free : base'.owner = none := calm.owner.trans owner
  obtain ⟨begun, begins, held, changes', executed', refreshing, -⟩ :=
    @begin_prompt _ _ base'.next (settled 2) rfl free 2
  have final : run prompt leaseCycle (lone client base)
      = lone { role := controlDesk, sources := 1, request := 2 } begun.released := by
    unfold leaseCycle
    rw [run_append, same]
    show disconnect prompt 0 (receive prompt 0 _ _) = _
    rw [receive_prompt (settled 1) (Or.inl free) (calm.refreshing.trans window) _ (by simp)
      ⟨rfl, Or.inr rfl⟩ (by simp [controlDesk]) ⟨rfl, rfl⟩]
    show disconnect prompt 0 (beginLease prompt 0 2 _) = _
    rw [begins]
    exact hangUp_prompt rfl held
  rw [final]
  refine ⟨⟨_, _, rfl, rfl⟩, rfl, ?_, ?_, ?_⟩
  · exact refreshing.trans (calm.refreshing.trans window)
  · show begun.changes + 1 = 2 * (leases + 1)
    rw [changes']
    show base'.changes + 1 + 1 = _
    rw [calm.changes, show base.changes = 2 * leases from changes]
    omega
  · exact executed'.trans (calm.executed.trans executed)

/-- So many leases. -/
def leaseCycles (leases : ℕ) : List Action :=
  (List.replicate leases leaseCycle).flatten

theorem leaseCycles_prompt (leases : ℕ) : Deserted (run prompt (leaseCycles leases) {}) leases := by
  induction leases with
  | zero =>
      refine ⟨⟨{}, {}, ?_, rfl⟩, rfl, rfl, rfl, rfl⟩
      show ({} : Server) = lone {} {}
      unfold lone
      rw [Function.update_eq_self]
  | succ leases ih =>
      have more : leaseCycles (leases + 1) = leaseCycles leases ++ leaseCycle := by
        simp [leaseCycles, List.replicate_succ']
      rw [more, run_append]
      exact leaseCycle_prompt ih

end Prompt

/-- A WRITE of a new GUI, with the first generation of the server. -/
def lateEdit : List Action :=
  greeting controlGui ++ [.receive 0 (.packet (some ⟨some .write, 2, 0, 1, [47, 97, 0, 0]⟩))]

/-- After `2^63` leases the generation is 1 again, and an edit of the start is executed. -/
theorem staleEdit : ∃ execution, (run prompt (leaseCycles (2 ^ 63) ++ lateEdit) {}).executed
      = (run prompt [] {}).executed ++ [execution]
    ∧ execution.role = controlGui ∧ execution.token = (run prompt [] {}).generation
    ∧ execution.changes = (run prompt [] {}).changes + 2 ^ 64 := by
  obtain ⟨⟨client, base, same, fd⟩, owner, window, changes, executed⟩ := leaseCycles_prompt (2 ^ 63)
  have sound : Sound (run prompt (leaseCycles (2 ^ 63)) {}) :=
    (follows_run ⟨sound_start, Grew.refl _⟩ _).1
  rw [same] at owner window changes executed sound
  obtain ⟨base', greeted, calm, -⟩ := @greeting_prompt client base controlGui (Or.inr rfl) fd owner window
  have settled (request : UInt32) : Settled
      { fd := some base.connections, role := controlGui, sources := 1, request := request }
      base.connections := ⟨rfl, rfl, rfl, rfl, rfl⟩
  have free : base'.owner = none := calm.owner.trans owner
  have generation : base'.generation = 1 := by
    rw [calm.generation, show base.generation = UInt64.ofNat (1 + base.changes) from sound.generation,
      show base.changes = 2 * 2 ^ 63 from changes]
    rfl
  refine ⟨⟨0, controlGui, 1, none, base'.generation, base'.changes, [47, 97, 0, 0]⟩, ?_, rfl, rfl, ?_⟩
  · rw [run_append, same, lateEdit, run_append, greeted, run, List.foldl_cons, List.foldl_nil, act,
      receive_prompt (settled 1) (Or.inl free) (calm.refreshing.trans window) _ (by simp)
      ⟨rfl, Or.inl rfl⟩ (by simp [controlGui]) ⟨rfl, rfl⟩]
    rw [show serve prompt 0 ⟨some .write, 2, 0, 1, [47, 97, 0, 0]⟩ (lone _ base'.next)
      = write prompt 0 2 1 [47, 97, 0, 0] (lone _ base'.next) from rfl,
      @write_prompt _ _ base'.next (settled 2) rfl free generation]
    show base'.executed ++ _ = _
    rw [calm.executed, show base.executed = [] from executed]
    rfl
  · show base'.changes = 0 + 2 ^ 64
    rw [calm.changes, show base.changes = 2 * 2 ^ 63 from changes]
    rfl

end OscmixDesk.Backend
