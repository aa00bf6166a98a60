/-
**What a connection hears.**

The packets of a connection are read one after the other by a `Reader`, which may refuse one. What a
reader has come to is kept by everything but the windows, if it takes every other packet (`handles_reads`).
A window that opens or closes moves the reader of every slot with a role (`windowChanged_reads`), and the
clock closes a window before it opens the next one (`controlTick_reads`).
-/

import OscmixDesk.Proof.Authority

namespace OscmixDesk.Backend

variable {outside : Outside}

/-! ### Streams -/

section Streams

variable {s : Server} {i index : Slot} {n connection : ℕ} {packet : Packet} {rest : List Packet}

theorem took_wires : (s.took index connection packet rest).wires n
    = if n = connection then s.wires connection ++ [packet] else s.wires n := by
  by_cases same : n = connection
  · subst same
    simp [Server.took]
  · simp [Server.took, same]

/-- A packet on the wire is where it was in the queue. -/
theorem took_stream (sound : Sound s) (fd : (s.clients index).fd = some connection)
    (queue : (s.clients index).queue = packet :: rest) (known : (s.clients i).fd = some n) :
    (s.took index connection packet rest).stream i n = s.stream i n := by
  rw [Server.stream, Server.stream, took_wires]
  by_cases same : i = index
  · subst same
    obtain rfl : connection = n := Option.some_inj.mp (fd.symm.trans known)
    rw [if_pos rfl, queue]
    simp [Server.took, Server.modify]
  · have other : n ≠ connection := by
      rintro rfl
      exact same (sound.apart i index n known fd)
    rw [if_neg other]
    simp [Server.took, Server.modify, Function.update_of_ne same]

@[simp] theorem next_stream : s.next.stream i n = s.stream i n := rfl

theorem push_stream : (s.push index packet).stream i n
    = if i = index then s.stream i n ++ [packet] else s.stream i n := by
  by_cases same : i = index
  · subst same
    rw [if_pos rfl, Server.stream, Server.stream, List.append_assoc]
    simp [Server.push, Server.modify]
  · rw [if_neg same, Server.stream, Server.stream]
    simp [Server.push, Server.modify, same]

theorem closeClient_other (other : i ≠ index) (s : Server) :
    (closeClient index s).clients i = s.clients i := by
  unfold closeClient
  cases (s.clients index).fd with
  | none => rfl
  | some _ => simp [Server.modify, Function.update_of_ne other]

/-- A slot that is still connected is not the one that was closed. -/
theorem closeClient_connected (known : ((closeClient index s).clients i).fd = some n) :
    i ≠ index ∧ (s.clients i).fd = some n := by
  rw [closeClient_fd] at known
  split_ifs at known with same
  exact ⟨same, known⟩

end Streams

/-! ### Soundness, on its own -/

theorem handles_sound : Handles Sound where
  asks s sound := ((handles_follows s).asks s ⟨sound, Grew.refl s⟩).1
  took s index connection packet rest sound fd queue :=
    ((handles_follows s).took s index connection packet rest ⟨sound, Grew.refl s⟩ fd queue).1
  close s index sound fd owner :=
    ((handles_follows s).close s index ⟨sound, Grew.refl s⟩ fd owner).1
  lose s index sound fd owner :=
    ((handles_follows s).lose s index ⟨sound, Grew.refl s⟩ fd owner).1
  event s index sound fd role :=
    ((handles_follows s).event s index ⟨sound, Grew.refl s⟩ fd role).1
  told s index packet sound fd plain :=
    ((handles_follows s).told s index packet ⟨sound, Grew.refl s⟩ fd plain).1
  counts s sound := ((handles_follows s).counts s ⟨sound, Grew.refl s⟩).1
  moves s index change sound same :=
    ((handles_follows s).moves s index change ⟨sound, Grew.refl s⟩ same).1
  begins s index sound fd free :=
    ((handles_follows s).begins s index ⟨sound, Grew.refl s⟩ fd free).1
  ends s sound := ((handles_follows s).ends s ⟨sound, Grew.refl s⟩).1

/-! ### One connection -/

/-- What was sent to a connection has a property. -/
structure Streamed (shape : List Packet → Prop) (n : ℕ) (s : Server) : Prop where
  sound : Sound s
  live : ∀ i, (s.clients i).fd = some n → shape (s.stream i n)
  wire : shape (s.wires n)

/-- The packet that grants a REFRESH. -/
def Packet.Grants (packet : Packet) : Prop :=
  packet.kind = .reply .refresh ∧ packet.code = controlOk

/-- A property of what was sent that every packet keeps but a granted REFRESH. -/
structure Ordinary (shape : List Packet → Prop) : Prop where
  shorter : ∀ first second, shape (first ++ second) → shape first
  longer : ∀ first packet, shape first → ¬ packet.Grants → shape (first ++ [packet])

section Streamed

variable {shape : List Packet → Prop} {n : ℕ} {s t : Server}

theorem Streamed.kept (streamed : Streamed shape n s) (sound : Sound t) (wires : t.wires = s.wires)
    (live : ∀ i, (t.clients i).fd = some n → (s.clients i).fd = some n
      ∧ (t.clients i).queue = (s.clients i).queue) : Streamed shape n t where
  sound := sound
  live i known := by
    obtain ⟨before, queue⟩ := live i known
    rw [Server.stream, wires, queue]
    exact streamed.live i before
  wire := by
    rw [wires]
    exact streamed.wire

theorem Streamed.pushed (streamed : Streamed shape n s) (index : Slot) (packet : Packet)
    (longer : (s.clients index).fd = some n → shape (s.stream index n) →
      shape (s.stream index n ++ [packet])) : Streamed shape n (s.push index packet) where
  sound := (Follows.push ⟨streamed.sound, Grew.refl s⟩ index packet).1
  live i known := by
    rw [push_fd] at known
    rw [push_stream]
    by_cases same : i = index
    · subst same
      rw [if_pos rfl]
      exact longer known (streamed.live i known)
    · rw [if_neg same]
      exact streamed.live i known
  wire := streamed.wire

theorem handles_streamed (ordinary : Ordinary shape) : Handles (Streamed shape n) where
  asks s held := held.kept (handles_sound.asks s held.sound) rfl fun _ known => ⟨known, rfl⟩
  took s index connection packet rest held fd queue :=
    { sound := handles_sound.took s index connection packet rest held.sound fd queue
      live := fun i known => by
        rw [(Drained.took index connection packet rest s).fd] at known
        rw [took_stream held.sound fd queue known]
        exact held.live i known
      wire := by
        rw [took_wires]
        split_ifs with same
        · subst same
          have whole := held.live index fd
          rw [Server.stream, queue, ← List.singleton_append, ← List.append_assoc] at whole
          exact ordinary.shorter _ _ whole
        · exact held.wire }
  close s index held fd owner := by
    refine held.kept (handles_sound.close s index held.sound fd owner)
      (closeClient_rest index s).2.2.2.2.1 fun i known => ?_
    obtain ⟨other, known'⟩ := closeClient_connected known
    rw [closeClient_other other]
    exact ⟨known', rfl⟩
  lose s index held fd owner := by
    refine held.kept (handles_sound.lose s index held.sound fd owner)
      (closeClient_rest index s).2.2.2.2.1 fun i known => ?_
    show _ ∧ ((closeClient index s).clients i).queue = _
    obtain ⟨other, known'⟩ := closeClient_connected known
    rw [closeClient_other other]
    exact ⟨known', rfl⟩
  event s index held fd role := held.pushed index _ fun _ shaped =>
    ordinary.longer _ _ shaped fun grants => by simp [Packet.Grants, Server.leaseEvent] at grants
  told s index packet held fd plain := held.pushed index packet fun _ shaped =>
    ordinary.longer _ _ shaped fun grants => plain.granted grants.1 grants.2
  counts s held := held.kept (handles_sound.counts s held.sound) rfl fun _ known => ⟨known, rfl⟩
  moves s index change held same := by
    refine held.kept (handles_sound.moves s index change held.sound same) rfl fun i known => ?_
    by_cases at' : i = index
    · subst at'
      simp only [Server.modify, Function.update_self] at known ⊢
      rw [(same _).1] at known
      exact ⟨known, (same _).2.1⟩
    · simp only [Server.modify, Function.update_of_ne at'] at known ⊢
      exact ⟨known, trivial⟩
  ends s held := held.kept (handles_sound.ends s held.sound) rfl fun _ known => ⟨known, rfl⟩
  begins s index held fd free := held.kept (handles_sound.begins s index held.sound fd free) rfl
    fun _ known => ⟨known, rfl⟩

theorem serves_streamed (outside : Outside) (ordinary : Ordinary shape) :
    Serves outside (Streamed shape n) where
  toStable := (handles_streamed ordinary).toStable
  opens s until' held := held.kept ((serves_follows outside s).opens s until' ⟨held.sound, Grew.refl s⟩).1
    rfl fun _ known => ⟨known, rfl⟩
  closes s held := held.kept ((serves_follows outside s).closes s ⟨held.sound, Grew.refl s⟩).1 rfl
    fun _ known => ⟨known, rfl⟩
  window s index code held fd role known := held.pushed index _ fun _ shaped =>
    ordinary.longer _ _ shaped fun grants => by simp [Packet.Grants] at grants
  handled _ _ delivery _ _ held := (handles_streamed ordinary).broadcast_keeps delivery.1 delivery.2 held

theorem greets_streamed : Greets (Streamed shape n) := fun s index role sources held known =>
  held.kept (greets_follows s s index role sources ⟨held.sound, Grew.refl s⟩ known).1 rfl fun i same => by
    by_cases at' : i = index
    · subst at'
      simp only [Server.modify, Function.update_self] at same ⊢
      exact ⟨same, trivial⟩
    · simp only [Server.modify, Function.update_of_ne at'] at same ⊢
      exact ⟨same, trivial⟩

theorem acceptClient_streamed (ordinary : Ordinary shape) (s : Server) (held : Streamed shape n s) :
    Streamed shape n (acceptClient outside s) := by
  have sound : Sound (acceptClient outside s) := (follows_acceptClient ⟨held.sound, Grew.refl s⟩).1
  unfold acceptClient at sound ⊢
  split_ifs at sound ⊢
  · exact held.kept sound rfl fun _ known => ⟨known, rfl⟩
  · cases found : (List.finRange 16).find? fun i => decide ((s.clients i).fd = none) with
    | none =>
        rw [found] at sound
        exact held.kept sound rfl fun _ known => ⟨known, rfl⟩
    | some i =>
        rw [found] at sound
        refine ⟨sound, fun j known => ?_, held.wire⟩
        by_cases same : j = i
        · subst same
          simp only [Server.modify, Function.update_self, Option.some.injEq] at known
          subst known
          have nothing : shape [] := ordinary.shorter [] _ held.wire
          have unborn : s.wires s.connections = [] := held.sound.unborn _ (le_refl _)
          have stream : ((s.wires s.connections) ++ [] : List Packet) = [] := by
            rw [unborn, List.append_nil]
          simp only [Server.stream, Server.modify, Function.update_self]
          show shape (s.wires s.connections ++ [])
          rwa [stream]
        · simp only [Server.modify, Function.update_of_ne same] at known ⊢
          have live := held.live j known
          simp only [Server.stream, Function.update_of_ne same]
          exact live

/-- A REFRESH keeps the property, if it may be granted after what was sent before. -/
theorem requestRefresh_streamed (ordinary : Ordinary shape) {index : Slot} (request : UInt32)
    {token : UInt64} (granted : (s.clients index).fd = some n → Granted outside index token s →
      shape (s.stream index n ++ [⟨.reply .refresh, request, controlOk, s.generation, .none⟩]))
    (held : Streamed shape n s) : Streamed shape n (requestRefresh outside index request token s) := by
  have handles := @handles_streamed shape n ordinary
  refine requestRefresh_keeps handles.toTalks (fun allowed => ?_)
    (fun t held => (serves_streamed outside ordinary).refresh_keeps held) held
  refine enqueue_keeps handles.toStable handles.toStable disconnect_drops
    (disconnect_keeps handles.toStable) (disconnect_keeps handles.toStable) (fun _ held _ => held)
    (fun t held drained _ _ same => ?_) (handles.asks s held)
  refine held.pushed index _ fun known _ => ?_
  rw [drained.fd] at known
  rw [same n known, next_stream]
  exact granted known allowed

/-- A connected slot keeps its connection. -/
def Connects (start s : Server) : Prop :=
  ∀ i n, (s.clients i).fd = some n → (start.clients i).fd = some n

theorem connects_tick (s : Server) : Connects s (controlTick outside s) := by
  have talks : Talks (Connects s) :=
    { asks := fun _ held => held
      took := fun t index connection packet rest held fd queue i n known =>
        held i n ((Drained.took index connection packet rest t).fd i ▸ known)
      close := fun t index held _ _ i n known => held i n (closeClient_connected known).2
      lose := fun t index held _ _ i n known => held i n (closeClient_connected known).2
      event := fun t index held _ _ i n known => held i n (by rwa [push_fd] at known)
      told := fun t index packet held _ _ i n known => held i n (by rwa [push_fd] at known)
      counts := fun _ held => held
      moves := fun t index change held same i n known => held i n (by
        by_cases at' : i = index
        · subst at'
          simpa [Server.modify, (same _).1] using known
        · simpa [Server.modify, at'] using known)
      ends := fun _ held => held }
  have serves : Serves outside (Connects s) :=
    { toStable := talks.toStable
      opens := fun _ _ held => held
      closes := fun _ held => held
      window := fun t index code held _ _ _ i n known => held i n (by rwa [push_fd] at known)
      handled := fun _ _ delivery _ _ held => talks.broadcast_keeps delivery.1 delivery.2 held }
  exact serves.controlTick_keeps fun _ _ known => known

/-- An action keeps the property, if every REFRESH it grants may be granted after what was sent before. -/
theorem act_streamed (ordinary : Ordinary shape) {action : Action}
    (granted : ∀ index frame, Serving outside s action index frame → frame.kind = some .refresh →
      (s.clients index).fd = some n →
      Granted outside index frame.token (atService outside index frame s) →
      shape ((atService outside index frame s).stream index n) →
      shape ((atService outside index frame s).stream index n
        ++ [⟨.reply .refresh, frame.request, controlOk, (atService outside index frame s).generation, .none⟩]))
    (held : Streamed shape n s) : Streamed shape n (act outside s action) := by
  have handles := @handles_streamed shape n ordinary
  have ticked : Streamed shape n (controlTick outside s) :=
    (serves_streamed outside ordinary).controlTick_keeps held
  by_cases idle : ∀ index frame, ¬ Serving outside s action index frame
  · exact act_keeps handles.toTalks (fun _ _ _ held _ => handles.hello_keeps greets_streamed _ _ _ held)
      (fun _ => acceptClient_streamed ordinary s held) held ticked idle
  · obtain ⟨index, frame, serving⟩ : ∃ index frame, Serving outside s action index frame := by
      simpa using idle
    have counted : Streamed shape n (atService outside index frame s) := by
      unfold atService counted
      exact handles.moves _ index _ ticked fun _ => ⟨rfl, rfl, rfl, id⟩
    rw [act_served serving]
    refine serve_keeps handles ?_ (fun _ => handles.write_keeps ?_ ?_ _ _ _ counted) (fun refresh =>
      requestRefresh_streamed ordinary _ (fun known allowed => ?_) counted) counted
      (counted_fd serving.served)
    · exact fun s hard idle held => held.kept
        (timeless_follows s s hard idle ⟨held.sound, Grew.refl s⟩).1 rfl fun _ known => ⟨known, rfl⟩
    · exact fun s hard idle held => held.kept
        (timeless_follows s s hard idle ⟨held.sound, Grew.refl s⟩).1 rfl fun _ known => ⟨known, rfl⟩
    · exact fun s _ _ data held authority => held.kept
        (follows_execute ⟨held.sound, Grew.refl s⟩ authority data).1 rfl fun _ known => ⟨known, rfl⟩
    · refine granted index frame serving refresh ?_ allowed (counted.live index known)
      refine @connects_tick outside s index n ?_
      simpa [atService, Backend.counted, Server.modify] using known

end Streamed

/-! ### Readers -/

/-- Reads packets one after the other; `none` is a packet it does not take. -/
structure Reader (σ : Type) where
  start : σ
  step : σ → Packet → Option σ
  /-- What it may have come to before its connection has a role. -/
  silent : σ → Prop

namespace Reader

variable {σ : Type} (reader : Reader σ)

/-- What it has come to after these packets. -/
def read (packets : List Packet) : Option σ :=
  packets.foldlM reader.step reader.start

theorem read_append (packets : List Packet) (packet : Packet) :
    reader.read (packets ++ [packet]) = (reader.read packets).bind fun p => reader.step p packet := by
  unfold read
  rw [List.foldlM_append]
  simp

/-- Who has read on has read what came before. -/
theorem read_before {first second : List Packet} (taken : (reader.read (first ++ second)).isSome) :
    (reader.read first).isSome := by
  unfold read at taken ⊢
  rw [List.foldlM_append] at taken
  cases here : List.foldlM reader.step reader.start first with
  | none =>
      rw [here] at taken
      cases taken
  | some p => rfl

/-- Every packet that is no window is taken, and leaves what is expected. -/
def Stays (expect : σ → Prop) : Prop :=
  ∀ p packet, packet.kind ≠ .window → ∃ p', reader.step p packet = some p'
    ∧ (reader.silent p → reader.silent p') ∧ (expect p → expect p')

/-- What is expected of a reader, by whether a window is open and its number. -/
structure Fits (expect : Bool → UInt64 → σ → Prop) : Prop where
  start : reader.silent reader.start
  stays : ∀ opened window, reader.Stays (expect opened window)
  closes : ∀ window p, expect true window p →
    ∃ p', reader.step p ⟨.window, 0, controlOk, window, .none⟩ = some p' ∧ expect false window p'

/-- The next window may be announced. -/
def Opens (expect : Bool → UInt64 → σ → Prop) (opened : Bool) (window : UInt64) : Prop :=
  ∀ p, expect opened window p →
    ∃ p', reader.step p ⟨.window, 0, controlBusy, window + 1, .none⟩ = some p' ∧ expect true (window + 1) p'

end Reader

/-- Whether a window is open, until when, and its number. -/
structure Hour where
  refreshing : Bool
  until' : ℚ
  window : UInt64

def Server.hour (s : Server) : Hour :=
  ⟨s.refreshing, s.refreshUntil, s.window⟩

section Reads

variable {σ : Type} {reader : Reader σ} {expect : Slot → σ → Prop} {hour : Hour} {s t : Server}

/-- What the readers of all connections have come to. -/
structure Reads (reader : Reader σ) (expect : Slot → σ → Prop) (hour : Hour) (s : Server) : Prop where
  sound : Sound s
  hour : s.hour = hour
  live : ∀ i n, (s.clients i).fd = some n → ∃ p, reader.read (s.stream i n) = some p
    ∧ ((s.clients i).role = 0 → reader.silent p) ∧ ((s.clients i).role ≠ 0 → expect i p)
  gone : ∀ n, (reader.read (s.wires n)).isSome

/-- Where slots are as they were, or gone, so are the readers. -/
theorem Reads.kept (reads : Reads reader expect hour s) (sound : Sound t) (same : t.hour = s.hour)
    (wires : t.wires = s.wires) (live : ∀ i n, (t.clients i).fd = some n → (s.clients i).fd = some n
      ∧ (t.clients i).role = (s.clients i).role ∧ (t.clients i).queue = (s.clients i).queue) :
    Reads reader expect hour t where
  sound := sound
  hour := same.trans reads.hour
  live i n known := by
    obtain ⟨before, role, queue⟩ := live i n known
    rw [Server.stream, wires, queue, role]
    exact reads.live i n before
  gone := by
    rw [wires]
    exact reads.gone

/-- What is expected of slots that have a role matters, and nothing else. -/
theorem Reads.weaken {after : Slot → σ → Prop} (reads : Reads reader expect hour s)
    (weaker : ∀ i p, (s.clients i).fd ≠ none → (s.clients i).role ≠ 0 → expect i p → after i p) :
    Reads reader after hour s where
  sound := reads.sound
  hour := reads.hour
  live i n known := by
    obtain ⟨p, read, quiet, expected⟩ := reads.live i n known
    exact ⟨p, read, quiet, fun role => weaker i p (by simp [known]) role (expected role)⟩
  gone := reads.gone

theorem Reads.took {index : Slot} {connection : ℕ} {packet : Packet} {rest : List Packet}
    (reads : Reads reader expect hour s) (fd : (s.clients index).fd = some connection)
    (queue : (s.clients index).queue = packet :: rest) :
    Reads reader expect hour (s.took index connection packet rest) where
  sound := handles_sound.took s index connection packet rest reads.sound fd queue
  hour := reads.hour
  live i n known := by
    have drained := Drained.took index connection packet rest s
    rw [drained.fd] at known
    rw [took_stream reads.sound fd queue known, drained.role]
    exact reads.live i n known
  gone n := by
    rw [took_wires]
    split_ifs with same
    · obtain ⟨p, read, -⟩ := reads.live index connection fd
      rw [Server.stream, queue, ← List.singleton_append, ← List.append_assoc] at read
      exact reader.read_before (Option.isSome_of_eq_some read)
    · exact reads.gone n

theorem Reads.close {index : Slot} (reads : Reads reader expect hour s) (sound : Sound (closeClient index s)) :
    Reads reader expect hour (closeClient index s) := by
  refine reads.kept sound ?_ (closeClient_rest index s).2.2.2.2.1 fun i n known => ?_
  · unfold closeClient
    cases (s.clients index).fd <;> rfl
  · obtain ⟨other, known'⟩ := closeClient_connected known
    rw [closeClient_other other]
    exact ⟨known', rfl, rfl⟩

/-- A packet that moves the reader of its slot as is expected after it. -/
theorem Reads.pushed {after : Slot → σ → Prop} {index : Slot} {packet : Packet}
    (reads : Reads reader expect hour s) (others : ∀ i p, i ≠ index → expect i p → after i p)
    (silent : (s.clients index).role = 0 → ∀ p, reader.silent p →
      ∃ p', reader.step p packet = some p' ∧ reader.silent p')
    (moved : (s.clients index).role ≠ 0 → ∀ p, expect index p →
      ∃ p', reader.step p packet = some p' ∧ after index p') :
    Reads reader after hour (s.push index packet) where
  sound := (Follows.push ⟨reads.sound, Grew.refl s⟩ index packet).1
  hour := reads.hour
  live i n known := by
    rw [push_fd] at known
    have role : ((s.push index packet).clients i).role = (s.clients i).role := by
      by_cases same : i = index
      · subst same
        simp [Server.push, Server.modify]
      · simp [Server.push, Server.modify, same]
    obtain ⟨p, read, quiet, expected⟩ := reads.live i n known
    rw [push_stream, role]
    by_cases same : i = index
    swap
    · rw [if_neg same]
      exact ⟨p, read, quiet, fun role => others i p same (expected role)⟩
    subst same
    rw [if_pos rfl, reader.read_append, read]
    by_cases role : (s.clients i).role = 0
    · obtain ⟨p', step, still⟩ := silent role p (quiet role)
      exact ⟨p', step, fun _ => still, fun some => absurd role some⟩
    · obtain ⟨p', step, after'⟩ := moved role p (expected role)
      exact ⟨p', step, fun none => absurd none role, fun _ => after'⟩
  gone := reads.gone

/-- Any packet that is no window may be told. -/
theorem told_reads (stays : ∀ i, reader.Stays (expect i)) (s : Server) (reads : Reads reader expect hour s)
    (index : Slot) (packet : Packet) (plain : packet.kind ≠ .window) :
    Reads reader expect hour (s.push index packet) := by
  refine reads.pushed (fun _ _ _ same => same) (fun _ p silent => ?_) fun _ p expected => ?_
  · obtain ⟨p', step, still, -⟩ := stays index p packet plain
    exact ⟨p', step, still silent⟩
  · obtain ⟨p', step, -, still⟩ := stays index p packet plain
    exact ⟨p', step, still expected⟩

theorem handles_reads (stays : ∀ i, reader.Stays (expect i)) : Handles (Reads reader expect hour) where
  asks s reads := reads.kept (handles_sound.asks s reads.sound) rfl rfl fun _ _ known => ⟨known, rfl, rfl⟩
  took _ _ _ _ _ reads fd queue := reads.took fd queue
  close s index reads fd owner := reads.close (handles_sound.close s index reads.sound fd owner)
  lose s index reads fd owner := by
    have sound := handles_sound.lose s index reads.sound fd owner
    refine reads.kept sound ?_ (closeClient_rest index s).2.2.2.2.1 fun i n known => ?_
    · show (closeClient index s).hour = s.hour
      unfold closeClient
      cases (s.clients index).fd <;> rfl
    · show _ ∧ ((closeClient index s).clients i).role = _ ∧ ((closeClient index s).clients i).queue = _
      obtain ⟨other, known'⟩ := closeClient_connected known
      rw [closeClient_other other]
      exact ⟨known', rfl, rfl⟩
  event s index reads fd role := by
    refine reads.pushed (fun _ _ _ same => same) (fun none => absurd none role) fun _ p expected => ?_
    obtain ⟨p', step, -, still⟩ := stays index p s.leaseEvent (by simp [Server.leaseEvent])
    exact ⟨p', step, still expected⟩
  told s index packet reads fd plain := told_reads stays s reads index packet plain.window
  counts s reads := reads.kept (handles_sound.counts s reads.sound) rfl rfl fun _ _ known =>
    ⟨known, rfl, rfl⟩
  moves s index change reads same := by
    refine reads.kept (handles_sound.moves s index change reads.sound same) rfl rfl fun i n known => ?_
    by_cases at' : i = index
    · subst at'
      simp only [Server.modify, Function.update_self] at known ⊢
      rw [(same _).1] at known
      exact ⟨known, (same _).2.2.1, (same _).2.1⟩
    · simp only [Server.modify, Function.update_of_ne at'] at known ⊢
      exact ⟨known, trivial, trivial⟩
  ends s reads := reads.kept (handles_sound.ends s reads.sound) rfl rfl fun _ _ known =>
    ⟨known, rfl, rfl⟩
  begins s index reads fd free := reads.kept (handles_sound.begins s index reads.sound fd free) rfl rfl
    fun _ _ known => ⟨known, rfl, rfl⟩

theorem timeless_reads : Timeless (Reads reader expect hour) := fun s hard idle reads =>
  reads.kept (timeless_follows s s hard idle ⟨reads.sound, Grew.refl s⟩).1 rfl rfl
    fun _ _ known => ⟨known, rfl, rfl⟩

theorem executes_reads : Executes (Reads reader expect hour) := fun s _ _ data reads authority =>
  reads.kept (follows_execute ⟨reads.sound, Grew.refl s⟩ authority data).1 rfl rfl
    fun _ _ known => ⟨known, rfl, rfl⟩

/-! ### Windows -/

/-- A window event moves every reader from what is expected before it to what is expected after it. -/
theorem windowChanged_reads {before after : σ → Prop} {code : UInt32} (stays : reader.Stays before)
    (stays' : reader.Stays after) (moved : ∀ p, before p →
      ∃ p', reader.step p ⟨.window, 0, code, hour.window, .none⟩ = some p' ∧ after p')
    (reads : Reads reader (fun _ => before) hour s) :
    Reads reader (fun _ => after) hour (windowChanged outside code s) := by
  have loop (slots : List Slot) (once : slots.Nodup) (t : Server)
      (reads : Reads reader (fun i => if i ∈ slots then before else after) hour t) :
      Reads reader (fun _ => after) hour (slots.foldl (fun s i =>
        if (s.clients i).fd ≠ none ∧ (s.clients i).role ≠ 0 then
          enqueue outside (disconnect outside) i ⟨.window, 0, code, s.window, .none⟩ s
        else s) t) := by
    induction slots generalizing t with
    | nil => simpa using reads
    | cons i rest ih =>
        obtain ⟨other, once⟩ := List.nodup_cons.mp once
        have mixed (among : List Slot) (j : Slot) : reader.Stays (if j ∈ among then before else after) := by
          split_ifs
          · exact stays
          · exact stays'
        have rest' (j : Slot) (same : j ≠ i) : (if j ∈ i :: rest then before else after)
            = if j ∈ rest then before else after := by
          simp only [List.mem_cons, or_iff_right same]
        refine ih once _ ?_
        show Reads reader _ hour (if _ then _ else _)
        by_cases told : (t.clients i).fd ≠ none ∧ (t.clients i).role ≠ 0
        · rw [if_pos told]
          have keeps := (@handles_reads σ reader _ hour (mixed (i :: rest))).toStable
          have keeps' := (@handles_reads σ reader _ hour (mixed rest)).toStable
          refine enqueue_keeps keeps keeps' disconnect_drops (disconnect_keeps keeps)
            (disconnect_keeps keeps') (fun u reads gone => ?_) (fun u reads drained fd _ _ => ?_) reads
          · refine reads.weaken fun j p fd _ expected => ?_
            have same : j ≠ i := by
              rintro rfl
              exact fd gone
            rwa [rest' j same] at expected
          · refine reads.pushed (fun j p same expected => rest' j same ▸ expected) (fun none => ?_)
              fun _ p expected => ?_
            · rw [drained.role] at none
              exact absurd none told.2
            · rw [if_pos List.mem_cons_self] at expected
              rw [if_neg other]
              have window : t.window = hour.window := by
                rw [← drained.window, ← reads.hour]
                rfl
              rw [window]
              exact moved p expected
        · rw [if_neg told]
          refine reads.weaken fun j p fd role expected => ?_
          have same : j ≠ i := by
            rintro rfl
            exact told ⟨fd, role⟩
          rwa [rest' j same] at expected
  refine loop _ (List.nodup_finRange 16) s ?_
  simpa using reads

end Reads

/-! ### The clock -/

section Clock

variable {σ : Type} {reader : Reader σ} {expect : Bool → UInt64 → σ → Prop} {hour : Hour} {s : Server}

/-- Every reader has come to what its server expects by the hour. -/
abbrev Heard (reader : Reader σ) (expect : Bool → UInt64 → σ → Prop) (hour : Hour) (s : Server) : Prop :=
  Reads reader (fun _ => expect hour.refreshing hour.window) hour s

theorem handles_heard (fits : reader.Fits expect) (hour : Hour) : Handles (Heard reader expect hour) :=
  handles_reads fun _ => fits.stays hour.refreshing hour.window

theorem closeWindow_heard (fits : reader.Fits expect) (current : ℚ) (heard : Heard reader expect hour s) :
    ∃ later, Heard reader expect later (closeWindow outside current s) ∧ later.window = hour.window
      ∧ (later.refreshing = true → current < later.until') := by
  unfold closeWindow
  by_cases due : s.refreshing = true ∧ current ≥ s.refreshUntil
  · rw [if_pos due]
    refine ⟨⟨false, hour.until', hour.window⟩, ?_, rfl, fun shut => by cases shut⟩
    have opened : hour.refreshing = true := by
      rw [← heard.hour]
      exact due.1
    refine windowChanged_reads (fits.stays true hour.window) (fits.stays false hour.window)
      (fits.closes hour.window) ?_
    have closing : Reads reader (fun _ => expect true hour.window) hour s := by
      rw [← opened]
      exact heard
    have same : s.hour = hour := heard.hour
    refine ⟨(serves_follows outside s).closes s ⟨heard.sound, Grew.refl s⟩ |>.1, ?_, closing.live, closing.gone⟩
    rw [← same]
    rfl
  · rw [if_neg due]
    refine ⟨hour, heard, rfl, fun opened => ?_⟩
    rw [← heard.hour] at opened ⊢
    exact not_le.mp fun late => due ⟨opened, late⟩

theorem refresh_heard (fits : reader.Fits expect)
    (opens : reader.Opens expect hour.refreshing hour.window) (heard : Heard reader expect hour s) :
    Heard reader expect ⟨true, outside.now s.asked + refreshWindow, hour.window + 1⟩ (refresh outside s) := by
  have same : s.hour = hour := heard.hour
  have window : s.window = hour.window := by
    rw [← same]
    rfl
  have opened : Reads reader (fun _ => expect hour.refreshing hour.window)
      ⟨true, outside.now s.asked + refreshWindow, hour.window + 1⟩
      (s.opened (outside.now s.asked + refreshWindow)) := by
    refine ⟨((serves_follows outside s).opens s _ ⟨heard.sound, Grew.refl s⟩).1, ?_, heard.live, heard.gone⟩
    rw [← window]
    rfl
  unfold refresh
  refine (handles_heard fits _).deliver_keeps _ ((handles_heard fits _).asks _ ?_)
  exact windowChanged_reads (fits.stays _ _) (fits.stays _ _) opens opened

theorem tickClients_heard (fits : reader.Fits expect) (opens : reader.Opens expect false hour.window)
    {current : ℚ} (shut : hour.refreshing = true → current < hour.until') (slots : List Slot)
    (heard : Heard reader expect hour s) :
    ∃ later, Heard reader expect later (tickClients outside current slots s)
      ∧ (later.window = hour.window ∨ later.window = hour.window + 1) := by
  induction slots generalizing s with
  | nil => exact ⟨hour, heard, Or.inl rfl⟩
  | cons i rest ih =>
      unfold tickClients
      split_ifs with gone late due
      · exact ih heard
      · exact ih ((handles_heard fits hour).disconnect_keeps i heard)
      · have closed : hour.refreshing = false := by
          rw [Bool.eq_false_iff]
          intro opened
          have early := shut opened
          rw [← heard.hour] at early
          exact absurd early (not_lt.mpr due.2.2)
        refine ⟨_, refresh_heard fits ?_ heard, Or.inr rfl⟩
        rw [closed]
        exact opens
      · exact ih heard

/-- The clock closes a window before it opens the next one. -/
theorem controlTick_heard (fits : reader.Fits expect) (opens : reader.Opens expect false hour.window)
    (heard : Heard reader expect hour s) :
    ∃ later, Heard reader expect later (controlTick outside s)
      ∧ (later.window = hour.window ∨ later.window = hour.window + 1) := by
  have handles := handles_heard fits hour
  have expired : Heard reader expect hour (expireLease outside (outside.now s.asked) s.next) := by
    have asked : Heard reader expect hour s.next := handles.asks s heard
    unfold expireLease
    cases s.next.owner with
    | none => exact asked
    | some owner =>
        dsimp only
        split_ifs
        · exact handles.disconnect_keeps owner asked
        · exact asked
  obtain ⟨closed, heard', window, shut⟩ := closeWindow_heard fits (outside.now s.asked) expired
  rw [← window] at opens ⊢
  exact tickClients_heard fits opens shut _ heard'

/-! ### Actions -/

/-- The readers are where the server of the moment expects them. -/
def Attends (reader : Reader σ) (expect : Bool → UInt64 → σ → Prop) (s : Server) : Prop :=
  ∃ hour, Heard reader expect hour s

theorem Attends.heard (attends : Attends reader expect s) : Heard reader expect s.hour s := by
  obtain ⟨hour, heard⟩ := attends
  rw [heard.hour]
  exact heard

theorem handles_attends (fits : reader.Fits expect) : Handles (Attends reader expect) :=
  handles_any fun hour => handles_heard fits hour

/-- A new connection has heard nothing. -/
theorem acceptClient_attends (fits : reader.Fits expect) (attends : Attends reader expect s) :
    Attends reader expect (acceptClient outside s) := by
  obtain ⟨hour, heard⟩ := attends
  have sound : Sound (acceptClient outside s) :=
    (follows_acceptClient ⟨heard.sound, Grew.refl s⟩).1
  refine ⟨hour, ?_⟩
  unfold acceptClient at sound ⊢
  split_ifs at sound ⊢
  · exact (handles_heard fits hour).asks s heard
  · cases found : (List.finRange 16).find? fun i => decide ((s.clients i).fd = none) with
    | none =>
        rw [found] at sound
        exact heard.kept sound rfl rfl fun _ _ known => ⟨known, rfl, rfl⟩
    | some i =>
        rw [found] at sound
        refine ⟨sound, heard.hour, fun j n known => ?_, heard.gone⟩
        by_cases same : j = i
        · subst same
          simp only [Server.modify, Function.update_self, Option.some.injEq] at known
          subst known
          refine ⟨reader.start, ?_, fun _ => fits.start, fun role => ?_⟩
          · have unborn : s.wires s.connections = [] := heard.sound.unborn _ (le_refl _)
            have stream : ((s.wires s.connections) ++ [] : List Packet) = [] := by
              rw [unborn, List.append_nil]
            simp only [Server.stream, Server.modify, Function.update_self]
            exact congrArg reader.read stream
          · simp [Server.modify] at role
        · simp only [Server.modify, Function.update_of_ne same] at known ⊢
          have live := heard.live j n known
          simp only [Server.stream, Function.update_of_ne same]
          exact live

/-- A connection gets its role; what it expects from then on, who has heard nothing meets. -/
theorem Reads.greeted {expect after : Slot → σ → Prop} {hour : Hour} (reads : Reads reader expect hour s)
    (index : Slot) {role sources : UInt32} (fresh : (s.clients index).role = 0) (known : role ≠ 0)
    (others : ∀ i p, i ≠ index → expect i p → after i p) (first : ∀ p, reader.silent p → after index p) :
    Reads reader after hour
      (s.modify index fun c => { c with role := role, sources := sources }) where
  sound := (reads.sound).kept (fun i => by
    by_cases same : i = index
    · subst same
      simp [Server.modify]
    · simp [Server.modify, same]) rfl rfl rfl rfl rfl rfl
  hour := reads.hour
  live i n fd := by
    by_cases same : i = index
    · subst same
      simp only [Server.modify, Function.update_self] at fd
      obtain ⟨p, read, silent, -⟩ := reads.live i n fd
      refine ⟨p, ?_, fun none => ?_, fun _ => ?_⟩
      · rw [← read]
        simp [Server.stream, Server.modify]
      · simp only [Server.modify, Function.update_self] at none
        exact absurd none known
      · exact first p (silent fresh)
    · simp only [Server.modify, Function.update_of_ne same] at fd ⊢
      obtain ⟨p, read, silent, expected⟩ := reads.live i n fd
      refine ⟨p, ?_, silent, fun role => others i p same (expected role)⟩
      rw [← read]
      simp [Server.stream, same]
  gone := reads.gone

/-- A HELLO keeps the readers, where one that has heard nothing is as expected once it hears of the lease. -/
theorem hello_attends (fits : reader.Fits expect) (first : ∀ opened window p packet, packet.kind = .event →
      reader.silent p → ∃ p', reader.step p packet = some p' ∧ expect opened window p')
    (index : Slot) (request role : UInt32) (data : List UInt8) (attends : Attends reader expect s) :
    Attends reader expect (hello outside index request role data s) := by
  obtain ⟨hour, heard⟩ := attends
  refine ⟨hour, ?_⟩
  have handles := handles_heard fits hour
  unfold hello
  split_ifs with named sources
  · exact handles.disconnect_keeps index heard
  · exact handles.disconnect_keeps index heard
  simp only [not_or, not_not] at named
  obtain ⟨fresh, -, low, -⟩ := named
  have known : role ≠ 0 := by
    rintro rfl
    exact absurd low (by decide)
  -- between its role and the event of the lease, the connection has heard nothing
  have stays (i : Slot) :
      reader.Stays (if i = index then reader.silent else expect hour.refreshing hour.window) := by
    split_ifs
    · intro p packet plain
      obtain ⟨p', step, still, -⟩ := fits.stays true 0 p packet plain
      exact ⟨p', step, still, still⟩
    · exact fits.stays hour.refreshing hour.window
  have greeted : Reads reader (fun i => if i = index then reader.silent
      else expect hour.refreshing hour.window) hour
      (s.modify index fun c => { c with role := role, sources := get32 data }) :=
    heard.greeted index fresh known (fun i p other expected => by rwa [if_neg other])
      fun p silent => by rwa [if_pos rfl]
  have between := (@handles_reads σ reader _ hour stays).toStable
  refine enqueue_keeps between handles.toStable disconnect_drops (disconnect_keeps between)
    (disconnect_keeps handles.toStable) (fun t reads gone => ?_) (fun t reads _ _ _ _ => ?_)
    ((@handles_reads σ reader _ hour stays).enqueue_keeps ⟨by simp, by simp⟩ greeted)
  · refine reads.weaken fun i p fd _ expected => ?_
    have other : i ≠ index := by
      rintro rfl
      exact fd gone
    rwa [if_neg other] at expected
  · refine reads.pushed (fun i p other expected => by rwa [if_neg other] at expected)
      (fun _ p silent => ?_) fun _ p silent => ?_
    · refine Exists.imp (fun p' both => ⟨both.1, both.2.1 silent⟩) (fits.stays true 0 p _ ?_)
      simp [Server.leaseEvent]
    · rw [if_pos rfl] at silent
      exact first hour.refreshing hour.window p _ rfl silent

theorem requestRefresh_attends (fits : reader.Fits expect) {index : Slot} (request : UInt32)
    {token : UInt64} (opens : Granted outside index token s →
      reader.Opens expect s.refreshing s.window)
    (attends : Attends reader expect s) :
    Attends reader expect (requestRefresh outside index request token s) := by
  have talks := (handles_attends fits).toTalks
  by_cases granted : Granted outside index token s
  swap
  · rcases @requestRefresh_denied outside s index token request granted with same | same
    · rw [same]
      exact talks.refused_keeps request attends
    · rw [same]
      exact talks.refused_keeps request (talks.asks s attends)
  have handles := handles_heard fits s.hour
  have heard : Heard reader expect s.hour (reply outside index .refresh request controlOk s.next) := by
    refine enqueue_stable handles.toStable disconnect_drops (disconnect_keeps handles.toStable)
      (fun t heard _ _ _ => ?_) (handles.asks s attends.heard)
    exact told_reads (fun _ => fits.stays _ _) t heard index _ (by simp)
  rw [requestRefresh_granted granted]
  split_ifs
  · exact ⟨_, refresh_heard fits (opens granted) heard⟩
  · exact ⟨_, heard⟩

/-- An action keeps the readers where they are expected, if every window it opens may be announced. -/
theorem act_attends (fits : reader.Fits expect) {action : Action}
    (ticks : reader.Opens expect false s.window)
    (greeted : ∀ index (frame : Frame) t, Attends reader expect t → (t.clients index).fd ≠ none →
      Attends reader expect (hello outside index frame.request frame.code frame.data t))
    (refreshes : ∀ index frame, Serving outside s action index frame → frame.kind = some .refresh →
      Granted outside index frame.token (atService outside index frame s) →
      reader.Opens expect (atService outside index frame s).refreshing
        (atService outside index frame s).window)
    (attends : Attends reader expect s) : Attends reader expect (act outside s action) := by
  have handles := handles_attends fits
  have ticked : Attends reader expect (controlTick outside s) := by
    obtain ⟨later, heard, -⟩ := controlTick_heard fits ticks attends.heard
    exact ⟨later, heard⟩
  by_cases idle : ∀ index frame, ¬ Serving outside s action index frame
  · exact act_keeps handles.toTalks greeted (fun _ => acceptClient_attends fits attends) attends ticked idle
  · obtain ⟨index, frame, serving⟩ : ∃ index frame, Serving outside s action index frame := by
      simpa using idle
    have counted : Attends reader expect (atService outside index frame s) := by
      unfold atService counted
      exact handles.moves _ index _ ticked fun _ => ⟨rfl, rfl, rfl, id⟩
    rw [act_served serving]
    refine serve_keeps handles ?_ (fun _ => handles.write_keeps ?_ ?_ _ _ _ counted) (fun refresh =>
      requestRefresh_attends fits _ (refreshes index frame serving refresh) counted) counted
      (counted_fd serving.served)
    · exact fun s hard idle => fun ⟨hour, heard⟩ => ⟨hour, timeless_reads s hard idle heard⟩
    · exact fun s hard idle => fun ⟨hour, heard⟩ => ⟨hour, timeless_reads s hard idle heard⟩
    · exact fun s index token data => fun ⟨hour, heard⟩ authority =>
        ⟨hour, executes_reads s index token data heard authority⟩

end Clock

end OscmixDesk.Backend
