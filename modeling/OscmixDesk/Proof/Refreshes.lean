/-
**A refresh that is asked for is not forgotten.**

While a mixer's `refreshQueued` is set and its connection is up, its REFRESH is on its way, or the server
remembers it, or the start of a window is on its way back (`refreshKept`). The server forgets what it
remembers only as a window opens, and then tells every connection that has said HELLO (`refresh_promises`);
every other change of a turn leaves the wish and the packets on their way (`handles_minds`).
-/

import OscmixDesk.Model.Console
import OscmixDesk.Proof.Streams

namespace OscmixDesk.Backend

variable {outside : Outside}

/-! ### What the server owes a mixer -/

/-- The start of a window. -/
def Packet.Opens (packet : Packet) : Prop :=
  packet.kind = .window ∧ packet.code = controlBusy

/-- The wish for a refresh is remembered, or the start of a window is on its way behind the packets read. -/
def Server.Promises (s : Server) (i : Slot) (n read : ℕ) : Prop :=
  (s.clients i).refresh = true ∨ ∃ packet ∈ (s.stream i n).drop read, packet.Opens

/-- What a turn keeps of a connection: it is one that was there, with its role, and with what it is promised. -/
structure Minds (i : Slot) (n read : ℕ) (was : Prop) (role : UInt32) (promised : Prop) (s : Server) : Prop where
  sound : Sound s
  heard : read ≤ (s.wires n).length
  was : (s.clients i).fd = some n → was
  role : (s.clients i).fd = some n → (s.clients i).role = role
  promised : (s.clients i).fd = some n → promised → s.Promises i n read

section Minds

variable {i : Slot} {n read : ℕ} {was : Prop} {role : UInt32} {promised : Prop} {s t : Server}

theorem Server.Promises.kept (promises : s.Promises i n read)
    (wish : (s.clients i).refresh = true → (t.clients i).refresh = true)
    (stream : s.stream i n <+: t.stream i n) : t.Promises i n read := by
  rcases promises with remembered | ⟨packet, member, opens⟩
  · exact Or.inl (wish remembered)
  · exact Or.inr ⟨packet, (stream.drop read).subset member, opens⟩

/-- Where a slot that is connected is one that was, with its role, its wish and its packets, it is minded. -/
theorem Minds.kept (minds : Minds i n read was role promised s) (sound : Sound t)
    (heard : (s.wires n).length ≤ (t.wires n).length)
    (slot : (t.clients i).fd = some n → (s.clients i).fd = some n ∧ (t.clients i).role = (s.clients i).role
      ∧ ((s.clients i).refresh = true → (t.clients i).refresh = true) ∧ s.stream i n <+: t.stream i n) :
    Minds i n read was role promised t where
  sound := sound
  heard := minds.heard.trans heard
  was known := minds.was (slot known).1
  role known := (slot known).2.1.trans (minds.role (slot known).1)
  promised known asked := (minds.promised (slot known).1 asked).kept (slot known).2.2.1 (slot known).2.2.2

/-- Of a connection that is gone anything is so. -/
theorem Minds.lost (minds : Minds i n read was role promised s) (gone : (s.clients i).fd ≠ some n)
    (role' : UInt32) (promised' : Prop) : Minds i n read was role' promised' s :=
  ⟨minds.sound, minds.heard, minds.was, fun known => absurd known gone, fun known => absurd known gone⟩

theorem fd_ne (gone : (s.clients i).fd = none) : (s.clients i).fd ≠ some n := by
  rw [gone]
  exact (Option.some_ne_none n).symm

theorem Minds.weaken (minds : Minds i n read was role promised s) {promised' : Prop}
    (weaker : promised' → promised) : Minds i n read was role promised' s :=
  { minds with promised := fun known asked => minds.promised known (weaker asked) }

/-- A slot changes, and is as it was for its mixer. -/
theorem Minds.modify (minds : Minds i n read was role promised s) (index : Slot) {change : Client → Client}
    (same : index = i → (s.clients i).fd = some n →
      (change (s.clients i)).role = (s.clients i).role
        ∧ ((s.clients i).refresh = true → (change (s.clients i)).refresh = true)
        ∧ (s.clients i).queue <+: (change (s.clients i)).queue)
    (fd : ∀ c, (change c).fd = c.fd) : Minds i n read was role promised (s.modify index change) := by
  refine minds.kept (Follows.modify ⟨minds.sound, Grew.refl s⟩ index fd).1 le_rfl fun known => ?_
  by_cases at' : i = index
  · subst at'
    simp only [Server.modify, Function.update_self] at known ⊢
    rw [fd] at known
    obtain ⟨role, wish, queue⟩ := same rfl known
    refine ⟨known, role, wish, ?_⟩
    simp only [Server.stream, Function.update_self]
    exact (List.prefix_append_right_inj _).mpr queue
  · simp only [Server.modify, Function.update_of_ne at'] at known ⊢
    refine ⟨known, trivial, id, ?_⟩
    simp only [Server.stream, Function.update_of_ne at']
    exact List.prefix_rfl

theorem Minds.push (minds : Minds i n read was role promised s) (index : Slot) (packet : Packet) :
    Minds i n read was role promised (s.push index packet) :=
  minds.modify index (fun _ _ => ⟨rfl, id, List.prefix_append _ _⟩) fun _ => rfl

/-- The same connections, wishes and packets. -/
theorem Minds.alike (minds : Minds i n read was role promised s) (sound : Sound t) (clients : t.clients = s.clients)
    (wires : t.wires = s.wires) : Minds i n read was role promised t := by
  refine minds.kept sound (by rw [wires]) fun known => ?_
  rw [clients] at known ⊢
  refine ⟨known, rfl, id, ?_⟩
  unfold Server.stream
  rw [clients, wires]

/-- A slot is closed. -/
theorem Minds.close (minds : Minds i n read was role promised s) {index : Slot} (sound : Sound t)
    (clients : t.clients = (closeClient index s).clients) (wires : t.wires = s.wires) :
    Minds i n read was role promised t := by
  refine minds.kept sound (by rw [wires]) fun known => ?_
  rw [clients] at known
  obtain ⟨other, known'⟩ := closeClient_connected known
  have same : t.clients i = s.clients i := by rw [clients, closeClient_other other]
  refine ⟨known', by rw [same], by rw [same]; exact id, ?_⟩
  unfold Server.stream
  rw [same, wires]

theorem handles_minds : Handles (Minds i n read was role promised) where
  asks s minds := minds.alike (handles_sound.asks s minds.sound) rfl rfl
  took s index connection packet rest minds fd queue := by
    refine minds.kept (handles_sound.took s index connection packet rest minds.sound fd queue) ?_ fun known => ?_
    · rw [took_wires]
      split_ifs with same
      · subst same
        simp
      · exact le_rfl
    · rw [(Drained.took index connection packet rest s).fd] at known
      rw [took_stream minds.sound fd queue known]
      refine ⟨known, (Drained.took index connection packet rest s).role i, fun wish => ?_, List.prefix_rfl⟩
      by_cases same : i = index
      · subst same
        simpa [Server.took, Server.modify] using wish
      · simpa [Server.took, Server.modify, Function.update_of_ne same] using wish
  close s index minds fd owner :=
    minds.close (handles_sound.close s index minds.sound fd owner) rfl (closeClient_rest index s).2.2.2.2.1
  lose s index minds fd owner :=
    minds.close (handles_sound.lose s index minds.sound fd owner) rfl (closeClient_rest index s).2.2.2.2.1
  event s index minds fd role := minds.push index s.leaseEvent
  told s index packet minds fd plain := minds.push index packet
  counts s minds := minds.alike (handles_sound.counts s minds.sound) rfl rfl
  moves s index change minds same := minds.modify index
    (fun _ _ => ⟨(same _).2.2.1, (same _).2.2.2, by rw [(same _).2.1]⟩) fun c => (same c).1
  ends s minds := minds.alike (handles_sound.ends s minds.sound) rfl rfl
  begins s index minds fd free := minds.alike (handles_sound.begins s index minds.sound fd free) rfl rfl

theorem timeless_minds : Timeless (Minds i n read was role promised) := fun s hard idle minds =>
  minds.alike (timeless_follows s s hard idle ⟨minds.sound, Grew.refl s⟩).1 rfl rfl

theorem executes_minds : Executes (Minds i n read was role promised) := fun s _ _ data minds authority =>
  minds.alike (follows_execute ⟨minds.sound, Grew.refl s⟩ authority data).1 rfl rfl

theorem grants_minds : Grants (Minds i n read was role promised) := fun _ index _ minds _ =>
  minds.push index _

/-! ### Windows -/

/-- The start of a window is told to every connection that has said HELLO. -/
theorem windowChanged_promises (minds : Minds i n read was role False s) :
    Minds i n read was role (role ≠ 0) (windowChanged outside controlBusy s) := by
  have loop (slots : List Slot) (t : Server) (minds : Minds i n read was role (i ∉ slots ∧ role ≠ 0) t) :
      Minds i n read was role (role ≠ 0) (slots.foldl (fun s i =>
        if (s.clients i).fd ≠ none ∧ (s.clients i).role ≠ 0 then
          enqueue outside (disconnect outside) i ⟨.window, 0, controlBusy, s.window, .none⟩ s
        else s) t) := by
    induction slots generalizing t with
    | nil => exact minds.weaken fun some' => ⟨List.not_mem_nil, some'⟩
    | cons j rest ih =>
        refine ih _ ?_
        -- a slot that is not reached yet is promised as before, and this one by the packet queued
        have stays (other : i ≠ j) : i ∉ rest ∧ role ≠ 0 → i ∉ j :: rest ∧ role ≠ 0 := fun ⟨apart, some'⟩ =>
          ⟨fun member => (List.mem_cons.mp member).elim other apart, some'⟩
        show Minds i n read was role _ (if _ then _ else _)
        by_cases told : (t.clients j).fd ≠ none ∧ (t.clients j).role ≠ 0
        · rw [if_pos told]
          refine enqueue_keeps handles_minds.toStable handles_minds.toStable disconnect_drops
            (disconnect_keeps handles_minds.toStable) (disconnect_keeps handles_minds.toStable)
            (fun u minds gone => ?_) (fun u minds _ _ _ _ => ?_) minds
          · by_cases same : i = j
            · subst same
              exact minds.lost (fd_ne gone) _ _
            · exact minds.weaken (stays same)
          · by_cases same : i = j
            · subst same
              refine { minds.push i _ with
                promised := fun _ _ => Or.inr ⟨⟨.window, 0, controlBusy, t.window, .none⟩, ?_, rfl, rfl⟩ }
              rw [push_stream, if_pos rfl, List.drop_append_of_le_length]
              · exact List.mem_append_right _ (List.mem_singleton_self _)
              · exact minds.heard.trans (List.sublist_append_left _ _).length_le
            · exact (minds.push j _).weaken (stays same)
        · rw [if_neg told]
          by_cases same : i = j
          · subst same
            refine { minds with promised := fun known promised => ?_ }
            exact absurd ⟨by rw [known]; exact Option.some_ne_none n, by rw [minds.role known]; exact promised.2⟩ told
          · exact minds.weaken (stays same)
  refine loop _ s (minds.weaken fun ⟨apart, _⟩ => apart (List.mem_finRange i))

/-- A refresh makes its promise to every connection that has said HELLO. -/
theorem refresh_promises (minds : Minds i n read was role promised s) :
    Minds i n read was role (role ≠ 0) (refresh outside s) := by
  unfold refresh
  refine handles_minds.deliver_keeps _ (handles_minds.asks _ (windowChanged_promises ?_))
  have sound := ((serves_follows outside s).opens s (outside.now s.asked + refreshWindow)
    ⟨minds.sound, Grew.refl s⟩).1
  exact ⟨sound, minds.heard, minds.was, minds.role, fun _ none' => none'.elim⟩

theorem ticks_minds (asks : promised → role ≠ 0) : Ticks outside (Minds i n read was role promised) where
  toStable := handles_minds.toStable
  closes s minds := minds.alike ((serves_follows outside s).closes s ⟨minds.sound, Grew.refl s⟩).1 rfl rfl
  window _ index _ minds _ _ _ := minds.push index _
  refreshes _ minds := (refresh_promises minds).weaken asks

/-! ### Requests -/

/-- A HELLO changes a slot that has no role yet, and only its own. -/
theorem hello_minds {index : Slot} (other : index = i → was → role ≠ 0) (request asked : UInt32)
    (data : List UInt8) (minds : Minds i n read was role promised s) :
    Minds i n read was role promised (hello outside index request asked data s) := by
  unfold hello
  by_cases refused : (s.clients index).role ≠ 0 ∨ data.length ≠ 4 ∨ asked < controlDesk ∨ controlReader < asked
  · rw [if_pos refused]
    exact handles_minds.disconnect_keeps index minds
  rw [if_neg refused]
  split_ifs with sources
  · exact handles_minds.disconnect_keeps index minds
  · have greeted : Minds i n read was role promised
        (s.modify index fun c => { c with role := asked, sources := get32 data }) := by
      refine minds.modify index (fun same known => ?_) fun _ => rfl
      subst same
      exact absurd (minds.role known ▸ other rfl (minds.was known)) fun some' => refused (Or.inl some')
    exact handles_minds.enqueue_keeps ⟨by simp [Server.leaseEvent], by simp [Server.leaseEvent]⟩
      (handles_minds.enqueue_keeps ⟨by simp, by simp⟩ greeted)

/-- A request of another connection, or one that is no HELLO of its own. -/
theorem dispatch_minds {index : Slot} (other : index = i → was → role ≠ 0) (asks : promised → role ≠ 0)
    (packet : Option Frame) (minds : Minds i n read was role promised s) :
    Minds i n read was role promised (dispatch outside index packet s) :=
  handles_minds.dispatch_keeps (ticks_minds asks) grants_minds timeless_minds executes_minds
    (fun _ _ minds _ => hello_minds other _ _ _ minds) minds

/-- A REFRESH of a mixer is remembered, or opens a window. -/
theorem requestRefresh_minds {request : UInt32} {token : UInt64} (minds : Minds i n read was controlGui False s) :
    Minds i n read was controlGui True (requestRefresh outside i request token s) := by
  have refused (t : Server) (minds : Minds i n read was controlGui False t) :
      Minds i n read was controlGui True (requestRefresh.refused outside i request t) := by
    unfold requestRefresh.refused
    refine handles_minds.reply_keeps _ _ _ _ ?_ (Or.inr (by decide))
    by_cases known : (t.clients i).fd = some n
    · rw [if_pos (minds.role known)]
      have moved := handles_minds.moves t i (fun c => { c with refresh := true }) minds
        fun _ => ⟨rfl, rfl, rfl, fun _ => rfl⟩
      exact { moved with promised := fun _ _ => Or.inl (by simp [Server.modify]) }
    · have gone := minds.lost known controlGui True
      split_ifs
      · exact handles_minds.moves t i _ gone fun _ => ⟨rfl, rfl, rfl, fun _ => rfl⟩
      · exact gone
  by_cases granted : Granted outside i token s
  · rw [requestRefresh_granted granted]
    have replied : Minds i n read was controlGui False (reply outside i .refresh request controlOk s.next) :=
      grants_minds.replied handles_minds.toTalks request minds
    split_ifs with up
    · exact (refresh_promises replied).weaken fun _ => by decide
    · exact replied.lost (fd_ne (not_not.mp up)) _ _
  · rcases @requestRefresh_denied outside s i token request granted with same | same
    · rw [same]
      exact refused s minds
    · rw [same]
      exact refused s.next (handles_minds.asks s minds)

/-- The HELLO of a mixer, unless its connection is dropped. -/
theorem hello_greets (request : UInt32) (minds : Minds i n read was 0 False s) :
    Minds i n read was controlGui False (hello outside i request controlGui (put32 7) s) := by
  by_cases known : (s.clients i).fd = some n
  swap
  · exact hello_minds (fun _ _ => by decide) _ _ _ (minds.lost known controlGui False)
  unfold hello
  have taken : ¬ ((s.clients i).role ≠ 0 ∨ (put32 7).length ≠ 4 ∨ controlGui < controlDesk
      ∨ controlReader < controlGui) := by
    rw [minds.role known]
    decide
  have sources : ¬ (get32 (put32 7) = 0 ∨ get32 (put32 7) &&& ~~~7 ≠ 0) := by decide
  rw [if_neg taken, if_neg sources]
  have greeted : Minds i n read was controlGui False
      (s.modify i fun c => { c with role := controlGui, sources := get32 (put32 7) }) :=
    { sound := (greets_follows s s i controlGui _ ⟨minds.sound, Grew.refl s⟩ (by decide)).1
      heard := minds.heard
      was := fun _ => minds.was known
      role := fun _ => by simp [Server.modify]
      promised := fun _ none' => none'.elim }
  exact handles_minds.enqueue_keeps ⟨by simp [Server.leaseEvent], by simp [Server.leaseEvent]⟩
    (handles_minds.enqueue_keeps ⟨by simp, by simp⟩ greeted)

/-- A mixer's own request, once its number has been counted, or its connection is dropped. -/
theorem dispatch_own {role' : UInt32} {promised' : Prop} {frame : Frame} (asks : promised → role ≠ 0)
    (minds : Minds i n read was role promised s)
    (greeted : ∀ t, frame.kind = some .hello → Minds i n read was role promised t →
      Minds i n read was role' promised' (hello outside i frame.request frame.code frame.data t))
    (served : ∀ t, frame.kind ≠ some .hello → Minds i n read was role promised t →
      Minds i n read was role' promised' (serve outside i frame t)) :
    Minds i n read was role' promised' (dispatch outside i (some frame) s) := by
  have ticked : Minds i n read was role promised (controlTick outside s) := (ticks_minds asks).controlTick_keeps minds
  have dropped (t : Server) (minds : Minds i n read was role promised t) :
      Minds i n read was role' promised' (disconnect outside i t) :=
    (handles_minds.disconnect_keeps i minds).lost (fd_ne (disconnect_drops t i)) _ _
  unfold dispatch
  generalize controlTick outside s = later at ticked
  dsimp only
  by_cases gone : (later.clients i).fd = none
  · rw [if_pos gone]
    exact ticked.lost (fd_ne gone) _ _
  rw [if_neg gone]
  have counted : Minds i n read was role promised (counted i frame later) :=
    handles_minds.moves later i _ ticked fun _ => ⟨rfl, rfl, rfl, id⟩
  split_ifs with number kind plain
  · exact dropped later ticked
  · exact greeted _ kind counted
  · exact dropped _ counted
  · exact served _ kind counted

/-- The HELLO of a mixer gives its connection the mixer's role. -/
theorem dispatch_hello {frame : Frame} (kind : frame.kind = some .hello) (code : frame.code = controlGui)
    (data : frame.data = put32 7) (minds : Minds i n read was 0 False s) :
    Minds i n read was controlGui False (dispatch outside i (some frame) s) := by
  refine dispatch_own (fun none' => none'.elim) minds (fun t _ minds => ?_) fun _ other _ => absurd kind other
  rw [code, data]
  exact hello_greets _ minds

/-- And its REFRESH is answered by a promise. -/
theorem dispatch_refresh {frame : Frame} (kind : frame.kind = some .refresh)
    (minds : Minds i n read was controlGui promised s) :
    Minds i n read was controlGui True (dispatch outside i (some frame) s) := by
  have unpromised : Minds i n read was controlGui False s := minds.weaken False.elim
  refine dispatch_own (fun none' => none'.elim) unpromised (fun t hello _ => ?_) fun t _ minds => ?_
  · rw [kind] at hello
    cases hello
  · unfold serve
    rw [kind]
    exact requestRefresh_minds minds

/-- A new connection has another number. -/
theorem acceptClient_minds (before : n < s.connections) (minds : Minds i n read was role promised s) :
    Minds i n read was role promised (acceptClient outside s) := by
  have sound : Sound (acceptClient outside s) := (follows_acceptClient ⟨minds.sound, Grew.refl s⟩).1
  unfold acceptClient at sound ⊢
  split_ifs at sound ⊢
  · exact minds.alike sound rfl rfl
  · cases found : (List.finRange 16).find? fun i => decide ((s.clients i).fd = none) with
    | none =>
        rw [found] at sound
        exact minds.alike sound rfl rfl
    | some j =>
        rw [found] at sound
        refine minds.kept sound le_rfl fun known => ?_
        by_cases same : i = j
        · subst same
          simp only [Server.modify, Function.update_self, Option.some.injEq] at known
          exact absurd known (Nat.ne_of_gt before)
        · simp only [Server.modify, Function.update_of_ne same] at known ⊢
          refine ⟨known, rfl, id, ?_⟩
          simp only [Server.stream, Function.update_of_ne same]
          exact List.prefix_rfl

/-- What the server does of itself, or for other clients. -/
theorem act_minds (before : n < s.connections) (asks : promised → role ≠ 0) {action : Action}
    (other : ∀ index packet, action = .receive index (.packet packet) → index = i → was → role ≠ 0)
    (minds : Minds i n read was role promised s) : Minds i n read was role promised (act outside s action) := by
  have talks := (@handles_minds i n read was role promised).toTalks
  cases action with
  | tick => exact (ticks_minds asks).controlTick_keeps minds
  | accept => exact acceptClient_minds before minds
  | hangUp index =>
      show Minds i n read was role promised (disconnect outside index s)
      exact talks.disconnect_keeps index minds
  | writable index =>
      show Minds i n read was role promised (flush outside (disconnect outside) index s)
      exact flush_keeps talks.toStable (disconnect_keeps talks.toStable) index minds
  | report bytes source =>
      show Minds i n read was role promised (controlBroadcast outside bytes source s)
      exact talks.broadcast_keeps bytes source minds
  | receive index received =>
      show Minds i n read was role promised (receive outside index received s)
      unfold receive
      split_ifs
      · exact minds
      cases received with
      | nothing => exact minds
      | ended =>
          show Minds i n read was role promised (disconnect outside index s)
          exact talks.disconnect_keeps index minds
      | packet packet => exact dispatch_minds (other index packet rfl) asks packet minds

end Minds

/-! ### What a mixer sends -/

namespace Mixer

variable {m : Mixer} {taken : Bool} {identity : Identity}

/-- What a callback of a mixer comes to: no HELLO, nothing of a mixer that is down, and where it wants a refresh
behind it, a REFRESH is sent or it wanted one before and no window has opened. -/
structure Goes (m : Mixer) (opened : Prop) (result : Mixer × List Frame) : Prop where
  quiet : ∀ frame ∈ result.2, frame.kind ≠ some .hello
  up : result.1.socket = true → m.socket = true
  down : m.socket = false → result.2 = []
  queued : result.1.socket = true → result.1.refreshQueued = true →
    (∃ frame ∈ result.2, frame.kind = some .refresh) ∨ m.refreshQueued = true ∧ ¬ opened

theorem goes_still {opened : Prop} (closed : ¬ opened) : Goes m opened (m, []) :=
  ⟨fun _ member => by simp at member, id, fun _ => rfl, fun _ queued => Or.inr ⟨queued, closed⟩⟩

theorem goes_down {opened : Prop} (m' : Mixer) : Goes m opened (m'.disconnectBackend, []) where
  quiet _ member := by simp at member
  up up := by simp [disconnectBackend] at up
  down _ := rfl
  queued up := by simp [disconnectBackend] at up

/-- A callback that begins by changing other fields. -/
theorem Goes.of {m' : Mixer} {opened opened' : Prop} {result : Mixer × List Frame} (goes : Goes m' opened' result)
    (socket : m'.socket = m.socket) (queued : m'.refreshQueued = true → m.refreshQueued = true) (closed : ¬ opened) :
    Goes m opened result where
  quiet := goes.quiet
  up sent := socket ▸ goes.up sent
  down gone := goes.down (socket.trans gone)
  queued up asked := (goes.queued up asked).imp id fun ⟨before, _⟩ => ⟨queued before, closed⟩

/-- A request that is sent is on its way, or the connection is down. -/
theorem sendControl_sent {kind : Request} {code : UInt32} {data : List UInt8}
    (up : (sendControl taken kind code data m).1.socket = true) :
    ∃ frame ∈ (sendControl taken kind code data m).2, frame.kind = some kind := by
  unfold sendControl at up ⊢
  split_ifs at up ⊢ with gone limits took
  · have down : m.socket = true := up
    simp [down] at gone
  · simp [disconnectBackend] at up
  · exact ⟨_, List.mem_singleton_self _, rfl⟩
  · simp [disconnectBackend] at up

theorem goes_sendControl {kind : Request} {code : UInt32} {data : List UInt8} (other : kind ≠ .hello) :
    Goes m False (sendControl taken kind code data m) := by
  unfold sendControl
  split_ifs with gone limits took
  · exact goes_still id
  · exact goes_down m
  · refine ⟨fun frame member => ?_, id, fun down => by simp [down] at gone, fun _ queued => Or.inr ⟨queued, id⟩⟩
    rw [List.mem_singleton.mp member]
    simpa using other
  · exact goes_down _

theorem goes_requestRefresh : Goes m False (requestRefresh taken m) := by
  unfold requestRefresh
  split_ifs with asks
  · have sent := @goes_sendControl { m with refreshQueued := true } taken .refresh 0 [] (by decide)
    exact ⟨sent.quiet, sent.up, sent.down, fun up _ => Or.inl (sendControl_sent up)⟩
  · exact goes_still id

/-- A callback that changes other fields only, and sends nothing. -/
theorem goes_quiet {m' : Mixer} {opened : Prop} (socket : m'.socket = m.socket)
    (queued : m'.refreshQueued = true → m.refreshQueued = true) (closed : ¬ opened) : Goes m opened (m', []) :=
  (goes_still id).of socket queued closed

/-- A packet that opens a window fulfils the wish. -/
theorem goes_onControlData (packet : Packet) : Goes m packet.Opens (onControlData identity taken packet m) := by
  unfold onControlData onControlData.failed
  cases kind : packet.kind with
  | reply request =>
      have closed : ¬ packet.Opens := fun opens => by simp [opens.1] at kind
      dsimp only
      split_ifs
      · exact goes_down m
      · exact goes_down _
      · exact goes_requestRefresh.of rfl id closed
      · exact goes_down _
      · exact goes_down _
      · exact goes_requestRefresh.of rfl id closed
      · exact goes_quiet rfl id closed
  | event =>
      have closed : ¬ packet.Opens := fun opens => by simp [opens.1] at kind
      dsimp only
      split_ifs
      · exact goes_down m
      · exact goes_down m
      · exact goes_quiet rfl id closed
      · exact goes_requestRefresh.of rfl id closed
      · exact goes_quiet rfl id closed
  | window =>
      dsimp only
      split_ifs with refused odd busy same
      · exact goes_down m
      · exact goes_down m
      · exact ⟨fun _ member => by simp at member, id, fun _ => rfl, fun _ queued => by simp at queued⟩
      · exact goes_quiet rfl id fun opens => busy opens.2
      · exact goes_quiet rfl id fun opens => busy opens.2
  | observation =>
      have closed : ¬ packet.Opens := fun opens => by simp [opens.1] at kind
      cases packet.payload with
      | osc data =>
          dsimp only
          split_ifs
          · exact goes_down m
          · exact goes_down m
          · exact goes_down m
          · exact goes_quiet rfl id closed
          · exact goes_quiet rfl id closed
      | _ =>
          dsimp only
          split_ifs <;> exact goes_down m

/-- A callback opens a window only with a packet that does. -/
theorem goes_step (event : Event) :
    Goes m (∃ packet, event = .packet packet ∧ packet.Opens) (step identity taken m event) := by
  cases event with
  | packet packet =>
      unfold step
      dsimp only
      by_cases up : m.socket = true
      · rw [if_pos up]
        have goes := @goes_onControlData m taken identity packet
        refine ⟨goes.quiet, goes.up, goes.down, fun up queued => (goes.queued up queued).imp id ?_⟩
        refine fun ⟨before, closed⟩ => ⟨before, fun ⟨other, same, opens⟩ => closed ?_⟩
        rwa [Event.packet.inj same]
      · rw [if_neg up]
        exact ⟨fun _ member => by simp at member, id, fun _ => rfl, fun up' => absurd up' up⟩
  | edit data =>
      have goes : Goes m False (step identity taken m (.edit data)) := by
        unfold step
        dsimp only
        split_ifs
        · exact goes_still id
        cases data with
        | none => exact goes_still id
        | some data => exact goes_sendControl (by decide)
      exact goes.of rfl id fun ⟨_, same, _⟩ => by cases same
  | refresh =>
      have goes : Goes m False (step identity taken m .refresh) := by
        unfold step
        dsimp only
        split_ifs
        · exact goes_still id
        · exact goes_requestRefresh
      exact goes.of rfl id fun ⟨_, same, _⟩ => by cases same
  | lost => exact goes_down m

end Mixer

/-! ### Both sides -/

/-- No HELLO is on its way. -/
def Quiet (mail : List Frame) : Prop :=
  ∀ frame ∈ mail, frame.kind ≠ some .hello

/-- A REFRESH is. -/
def Asked (mail : List Frame) : Prop :=
  ∃ frame ∈ mail, frame.kind = some .refresh

/-- The HELLO of a mixer is the next of its requests, or could not be sent. -/
def Unserved (m : Mixer) (mail : List Frame) : Prop :=
  mail = [] ∧ m.socket = false ∨ ∃ frame rest, mail = frame :: rest ∧ frame.kind = some .hello
    ∧ frame.code = controlGui ∧ frame.data = put32 7 ∧ Quiet rest

/-- What holds of a mixer on its connection. -/
structure Tended (s : Server) (n read : ℕ) (m : Mixer) (mail : List Frame) : Prop where
  known : n < s.connections
  heard : read ≤ (s.wires n).length
  role : ∀ i, (s.clients i).fd = some n → (s.clients i).role = 0 ∧ Unserved m mail
    ∨ (s.clients i).role = controlGui ∧ Quiet mail
  queued : ∀ i, (s.clients i).fd = some n → m.socket = true → m.refreshQueued = true →
    Asked mail ∨ (s.clients i).role = controlGui ∧ s.Promises i n read

section Tended

variable {s t : Server} {n read : ℕ} {m : Mixer} {mail rest : List Frame}

/-- What a turn starts from. -/
theorem Tended.minds (tended : Tended s n read m mail) (sound : Sound s) (i : Slot) :
    Minds i n read ((s.clients i).fd = some n) (s.clients i).role
      ((s.clients i).role = controlGui ∧ s.Promises i n read) s :=
  ⟨sound, tended.heard, id, fun _ => rfl, fun _ promised => promised.2⟩

/-- A turn of the server that minds the connection. -/
theorem Tended.turned (tended : Tended s n read m mail) (connections : s.connections ≤ t.connections)
    (minds : ∀ i, Minds i n read ((s.clients i).fd = some n) (s.clients i).role
      ((s.clients i).role = controlGui ∧ s.Promises i n read) t) : Tended t n read m mail where
  known := tended.known.trans_le connections
  heard := (minds 0).heard
  role i known := by
    rw [(minds i).role known]
    exact tended.role i ((minds i).was known)
  queued i known up queued := by
    rw [(minds i).role known]
    exact (tended.queued i ((minds i).was known) up queued).imp id fun promised =>
      ⟨promised.1, (minds i).promised known promised⟩

/-- The next request, served to its end: what it asked for is promised. -/
theorem Tended.dispatched {frame : Frame} {index : Slot} (tended : Tended s n read m (frame :: rest))
    (sound : Sound s) (fd : (s.clients index).fd = some n) : ∃ promised,
      Minds index n read ((s.clients index).fd = some n) controlGui promised (dispatch outside index (some frame) s)
        ∧ Quiet rest ∧ (m.socket = true → m.refreshQueued = true → Asked rest ∨ promised) := by
  have asked (other : frame.kind ≠ some .refresh) : Asked (frame :: rest) → Asked rest := by
    rintro ⟨wish, member, kind⟩
    rcases List.mem_cons.mp member with rfl | member
    · exact absurd kind other
    · exact ⟨wish, member, kind⟩
  rcases tended.role index fd with ⟨role, unserved⟩ | ⟨role, quiet⟩
  · rcases unserved with ⟨empty, -⟩ | ⟨hello, later, same, kind, code, data, quiet⟩
    · cases empty
    obtain ⟨rfl, rfl⟩ := List.cons.inj same
    refine ⟨False, dispatch_hello kind code data ?_, quiet, fun up queued => ?_⟩
    · exact ⟨sound, tended.heard, id, fun _ => role, fun _ none' => none'.elim⟩
    · rcases tended.queued index fd up queued with wish | ⟨role', -⟩
      · exact Or.inl (asked (by simp [kind]) wish)
      · exact absurd (role.symm.trans role') (by decide)
  · have minds : Minds index n read ((s.clients index).fd = some n) controlGui (s.Promises index n read) s :=
      ⟨sound, tended.heard, id, fun _ => role, fun _ promised => promised⟩
    have rest' : Quiet rest := fun other member => quiet other (List.mem_cons_of_mem _ member)
    by_cases kind : frame.kind = some .refresh
    · exact ⟨True, dispatch_refresh kind minds, rest', fun _ _ => Or.inr trivial⟩
    · refine ⟨_, dispatch_minds (fun _ _ => by decide) (fun _ => by decide) _ minds, rest', fun up queued => ?_⟩
      exact (tended.queued index fd up queued).imp (asked kind) And.right

/-- The server reads the next request of the mixer. -/
theorem Tended.request {frame : Frame} {index : Slot} (tended : Tended s n read m (frame :: rest)) (sound : Sound s)
    (fd : (s.clients index).fd = some n) :
    Tended (receive outside index (.packet (some frame)) s) n read m rest := by
  have connections : s.connections ≤ (receive outside index (.packet (some frame)) s).connections :=
    (follows_act ⟨sound, Grew.refl s⟩ (.receive index (.packet (some frame)))).2.connections
  have served : receive outside index (.packet (some frame)) s = dispatch outside index (some frame) s := by
    unfold receive
    rw [if_neg (by simp [fd])]
  rw [served] at connections ⊢
  obtain ⟨promised, minds, quiet, queued⟩ := @Tended.dispatched outside s n read m rest frame index tended sound fd
  have alone (i : Slot) (known : ((dispatch outside index (some frame) s).clients i).fd = some n) : i = index := by
    by_contra other
    have minds : Minds i n read _ _ _ (dispatch outside index (some frame) s) := dispatch_minds
      (fun same => absurd same.symm other) (fun promised => by rw [promised.1]; decide) (some frame)
      (tended.minds sound i)
    exact other (sound.apart i index n (minds.was known) fd)
  refine ⟨tended.known.trans_le connections, minds.heard, fun i known => ?_, fun i known up wish => ?_⟩
  · obtain rfl := alone i known
    exact Or.inr ⟨minds.role known, quiet⟩
  · obtain rfl := alone i known
    exact (queued up wish).imp id fun promised => ⟨minds.role known, minds.promised known promised⟩

/-- The mixer goes on. -/
theorem Tended.moved {opened : Prop} {result : Mixer × List Frame} {read' : ℕ} (tended : Tended s n read m mail)
    (goes : m.Goes opened result) (heard : read' ≤ (s.wires n).length)
    (keeps : ∀ i, (s.clients i).fd = some n → ¬ opened → s.Promises i n read → s.Promises i n read') :
    Tended s n read' result.1 (mail ++ result.2) where
  known := tended.known
  heard := heard
  role i known := by
    refine (tended.role i known).imp (fun ⟨role, unserved⟩ => ⟨role, ?_⟩) fun ⟨role, quiet⟩ => ⟨role, ?_⟩
    · rcases unserved with ⟨rfl, down⟩ | ⟨hello, later, rfl, kind, code, data, quiet⟩
      · refine Or.inl ⟨goes.down down, ?_⟩
        rw [Bool.eq_false_iff] at down ⊢
        exact fun up => down (goes.up up)
      · refine Or.inr ⟨hello, later ++ result.2, rfl, kind, code, data, ?_⟩
        exact fun frame member => (List.mem_append.mp member).elim (quiet frame) (goes.quiet frame)
    · exact fun frame member => (List.mem_append.mp member).elim (quiet frame) (goes.quiet frame)
  queued i known up queued := by
    rcases goes.queued up queued with ⟨frame, member, kind⟩ | ⟨before, closed⟩
    · exact Or.inl ⟨frame, List.mem_append_right _ member, kind⟩
    · refine (tended.queued i known (goes.up up) before).imp ?_ fun ⟨role, promised⟩ =>
        ⟨role, keeps i known closed promised⟩
      rintro ⟨frame, member, kind⟩
      exact ⟨frame, List.mem_append_left _ member, kind⟩

end Tended

/-! ### Every interleaving -/

/-- Whoever moves, no wish for a refresh is forgotten. -/
structure Remembers (console : Console) : Prop where
  sound : Sound console.server
  unread : ∀ n, console.server.connections ≤ n → console.taken n = 0
  tended : ∀ n m, console.mixer n = some m → Tended console.server n (console.taken n) m (console.mail n)

section Remembers

variable {console : Console} {identity : ℕ → Identity}

/-- What the server does of itself, or for other clients. -/
theorem Remembers.serve (remembers : Remembers console) {action : Action} (foreign : console.Foreign action) :
    Remembers { console with server := act outside console.server action } := by
  have follows : Follows console.server (act outside console.server action) :=
    follows_act ⟨remembers.sound, Grew.refl _⟩ action
  refine ⟨follows.1, fun n new => remembers.unread n (follows.2.connections.trans new), fun n m known => ?_⟩
  have tended := remembers.tended n m known
  refine tended.turned follows.2.connections fun i => act_minds tended.known
    (fun promised => by rw [promised.1]; decide) (fun index packet same at' fd => ?_) (tended.minds remembers.sound i)
  -- the mixer's own requests are not served so
  subst same at'
  cases (foreign n fd).symm.trans known

/-- Another connection does not change a mixer's. -/
theorem Remembers.accepted (remembers : Remembers console) :
    Sound (acceptClient outside console.server) ∧ ∀ n m, console.mixer n = some m →
      Tended (acceptClient outside console.server) n (console.taken n) m (console.mail n) := by
  have follows : Follows console.server (acceptClient outside console.server) :=
    follows_acceptClient ⟨remembers.sound, Grew.refl _⟩
  refine ⟨follows.1, fun n m known => ?_⟩
  have tended := remembers.tended n m known
  exact tended.turned follows.2.connections fun i => acceptClient_minds tended.known (tended.minds remembers.sound i)

/-- The HELLO of a mixer is all it has sent as it starts, if the socket takes it. -/
theorem start_unserved (taken : Bool) : Unserved (Mixer.start taken).1 (Mixer.start taken).2 := by
  cases taken with
  | false => exact Or.inl ⟨rfl, rfl⟩
  | true =>
      exact Or.inr ⟨⟨some .hello, 1, controlGui, 0, put32 7⟩, [], rfl, rfl, rfl, rfl,
        fun _ member => by simp at member⟩

theorem start_unqueued (taken : Bool) : (Mixer.start taken).1.refreshQueued = false := by
  cases taken <;> rfl

/-- A new connection has no role. -/
theorem acceptClient_role {s : Server} (sound : Sound s) {i : Slot}
    (known : ((acceptClient outside s).clients i).fd = some s.connections) :
    ((acceptClient outside s).clients i).role = 0 := by
  unfold acceptClient at known ⊢
  split_ifs at known ⊢
  · exact absurd (sound.fresh i _ known) (lt_irrefl _)
  · cases found : (List.finRange 16).find? fun i => decide ((s.clients i).fd = none) with
    | none =>
        rw [found] at known
        exact absurd (sound.fresh i _ known) (lt_irrefl _)
    | some j =>
        rw [found] at known
        by_cases same : i = j
        · subst same
          simp [Server.modify]
        · simp only [Server.modify, Function.update_of_ne same] at known
          exact absurd (sound.fresh i _ known) (lt_irrefl _)

theorem tended_start {s : Server} (sound : Sound s) (taken : Bool)
    (new : (acceptClient outside s).connections = s.connections + 1) :
    Tended (acceptClient outside s) s.connections 0 (Mixer.start taken).1 (Mixer.start taken).2 where
  known := by
    rw [new]
    exact Nat.lt_succ_self _
  heard := Nat.zero_le _
  role i known := Or.inl ⟨acceptClient_role sound known, start_unserved taken⟩
  queued i known up queued := by
    rw [start_unqueued] at queued
    cases queued

/-- A mixer's callback: the others are as they were. -/
theorem Remembers.moved (remembers : Remembers console) {n : ℕ} {m : Mixer} {opened : Prop}
    {result : Mixer × List Frame} {read : ℕ} (known : console.mixer n = some m) (goes : m.Goes opened result)
    (heard : read ≤ (console.server.wires n).length)
    (keeps : ∀ i, (console.server.clients i).fd = some n → ¬ opened →
      console.server.Promises i n (console.taken n) → console.server.Promises i n read) :
    Remembers { console.moved n result with taken := Function.update console.taken n read } where
  sound := remembers.sound
  unread n' new := by
    have other : n' ≠ n := by
      rintro rfl
      exact absurd (remembers.tended n' m known).known (not_lt.mpr new)
    show Function.update console.taken n read n' = 0
    rw [Function.update_of_ne other]
    exact remembers.unread n' new
  tended n' m' known' := by
    show Tended console.server n' (Function.update console.taken n read n') m'
      (Function.update console.mail n (console.mail n ++ result.2) n')
    by_cases same : n' = n
    · subst same
      have moved : result.1 = m' := by simpa [Console.moved] using known'
      rw [Function.update_self, Function.update_self, ← moved]
      exact (remembers.tended n' m known).moved goes heard keeps
    · rw [Function.update_of_ne same, Function.update_of_ne same]
      refine remembers.tended n' m' ?_
      simpa [Console.moved, Function.update_of_ne same] using known'

theorem Remembers.step {console' : Console} (remembers : Remembers console)
    (step : Console.Step outside identity console console') : Remembers console' := by
  cases step with
  | serve action foreign => exact remembers.serve foreign
  | start taken new =>
      obtain ⟨sound, tended⟩ := @Remembers.accepted outside console remembers
      refine ⟨sound, fun n later => remembers.unread n ?_, fun n m known => ?_⟩
      · have later' : console.server.connections + 1 ≤ n := by
          rw [← new]
          exact later
        exact Nat.le_of_succ_le later'
      · dsimp only at known ⊢
        by_cases same : n = console.server.connections
        · subst same
          rw [Function.update_self] at known ⊢
          obtain rfl := Option.some_inj.mp known
          rw [remembers.unread _ le_rfl]
          exact tended_start remembers.sound taken new
        · rw [Function.update_of_ne same] at known ⊢
          exact tended n m known
  | request index n m frame rest fd known mail =>
      have follows : Follows console.server (receive outside index (.packet (some frame)) console.server) :=
        follows_act ⟨remembers.sound, Grew.refl _⟩ (.receive index (.packet (some frame)))
      refine ⟨follows.1, fun n later => remembers.unread n (follows.2.connections.trans later),
        fun n' m' known' => ?_⟩
      have tended := remembers.tended n' m' known'
      dsimp only
      by_cases same : n' = n
      · subst same
        rw [Function.update_self]
        rw [mail] at tended
        exact tended.request remembers.sound fd
      · rw [Function.update_of_ne same]
        refine tended.turned follows.2.connections fun i => ?_
        show Minds i n' _ _ _ _ (act outside console.server (.receive index (.packet (some frame))))
        refine act_minds tended.known (fun promised => by rw [promised.1]; decide)
          (fun index' packet served at' fd' => ?_) (tended.minds remembers.sound i)
        obtain ⟨rfl, -⟩ := Action.receive.inj served
        subst at'
        exact absurd (Option.some_inj.mp (fd'.symm.trans fd)) same
  | read n m packet taken known up next =>
      obtain ⟨inside, first⟩ := List.getElem?_eq_some_iff.mp next
      refine remembers.moved known (Mixer.goes_step (.packet packet)) inside fun i fd closed promises => ?_
      refine promises.imp id fun ⟨opening, member, opens⟩ => ⟨opening, ?_, opens⟩
      have within : console.taken n < (console.server.stream i n).length :=
        inside.trans_le (List.sublist_append_left _ _).length_le
      rw [List.drop_eq_getElem_cons within] at member
      rcases List.mem_cons.mp member with same | later
      · -- the packet that is read would have opened a window
        have here : (console.server.stream i n)[console.taken n] = packet :=
          (List.getElem_append_left inside).trans first
        rw [same, here] at opens
        exact absurd ⟨packet, rfl, opens⟩ closed
      · exact later
  | callback n m event taken known other =>
      have still := remembers.moved known (@Mixer.goes_step m taken (identity n) event)
        (remembers.tended n m known).heard fun _ _ _ promises => promises
      rwa [Function.update_eq_self] at still

theorem Remembers.start : Remembers {} where
  sound := sound_start
  unread _ _ := rfl
  tended _ _ known := by cases known

theorem Console.Reachable.remembers (reachable : Console.Reachable outside identity console) : Remembers console := by
  induction reachable with
  | start => exact Remembers.start
  | step _ step remembers => exact remembers.step step

/-- Whatever the parties do: while a mixer waits for a refresh and its connection is up on both ends, its REFRESH
is on its way, or the server remembers one for it, or the start of a window is on its way back. -/
theorem refreshKept (reachable : Console.Reachable outside identity console) {n : ℕ} {m : Mixer}
    (mixer : console.mixer n = some m) (queued : m.refreshQueued = true) (up : m.socket = true) {i : Slot}
    (fd : (console.server.clients i).fd = some n) :
    (∃ frame ∈ console.mail n, frame.kind = some .refresh) ∨ (console.server.clients i).refresh = true
      ∨ ∃ packet ∈ (console.server.stream i n).drop (console.taken n),
        packet.kind = .window ∧ packet.code = controlBusy :=
  ((reachable.remembers.tended n m mixer).queued i fd up queued).imp id And.right

/-- A mixer that has just connected waits for a refresh. -/
theorem refreshKept_connected : ∃ console m,
    Console.Reachable prompt (fun _ => ⟨1, [85], fun _ => true⟩) console ∧ console.mixer 0 = some m
      ∧ m.refreshQueued = true
      ∧ ((∃ frame ∈ console.mail 0, frame.kind = some .refresh) ∨ (console.server.clients 0).refresh = true
        ∨ ∃ packet ∈ (console.server.stream 0 0).drop (console.taken 0),
          packet.kind = .window ∧ packet.code = controlBusy) := by
  have started : Console.Reachable prompt (fun _ => ⟨1, [85], fun _ => true⟩) _ :=
    .step .start (.start {} true (by decide +kernel))
  have served := started.step (.request _ 0 0 _ _ _ rfl rfl rfl)
  have connected := served.step
    (.read _ 0 _ ⟨.reply .hello, 1, controlOk, 1, .hello prompt.hello⟩ true rfl rfl (by decide +kernel))
  exact ⟨_, _, connected, rfl, by decide +kernel,
    refreshKept connected rfl (by decide +kernel) (by decide +kernel) (by decide +kernel)⟩

end Remembers

end OscmixDesk.Backend
