/-
**What a request keeps.**

A request asks the clock, changes its own slot, takes the lease or gives it up, executes a command and
queues replies. A property that each of these keeps by itself (`Handles`) is kept by every request but a
REFRESH that opens a window, and by a new connection. The deadlines of the lease and the windows are left
to whoever states a property of them.
-/

import OscmixDesk.Proof.Broadcasts

namespace OscmixDesk.Backend

variable {outside : Outside} {holds : Server → Prop}

/-- What authorises a WRITE: the lease, or the GUI's freedom while there is none. -/
def authorized (index : Slot) (token : UInt64) (s : Server) : Bool :=
  hasLease index token s
    || decide ((s.clients index).role = controlGui ∧ s.owner = none ∧ token = s.generation)

/-- A packet that neither tells of a window nor grants one. -/
structure Packet.Plain (packet : Packet) : Prop where
  window : packet.kind ≠ .window
  granted : packet.kind = .reply .refresh → packet.code ≠ controlOk

/-- A stable property that replies, events, deliveries and requests keep too, as far as no lease begins,
nothing is executed and no deadline is set. -/
structure Talks (holds : Server → Prop) : Prop extends Stable holds where
  told : ∀ s index packet, holds s → (s.clients index).fd ≠ none → packet.Plain →
    holds (s.push index packet)
  counts : ∀ s, holds s →
    holds { s with observation := s.observation + 1, broadcasts := s.broadcasts + 1 }
  moves : ∀ s index change, holds s →
    (∀ c, (change c).fd = c.fd ∧ (change c).queue = c.queue ∧ (change c).role = c.role
      ∧ (c.refresh = true → (change c).refresh = true)) → holds (s.modify index change)
  ends : ∀ s, holds s → holds s.released

/-- A property that a lease that begins keeps too. -/
structure Handles (holds : Server → Prop) : Prop extends Talks holds where
  begins : ∀ s index, holds s → (s.clients index).fd ≠ none → s.owner = none →
    holds { s with owner := some index, generation := s.generation + 1, changes := s.changes + 1 }

/-- One of several properties, each of which requests keep. -/
theorem handles_any {κ : Type} {some' : κ → Server → Prop} (each : ∀ k, Handles (some' k)) :
    Handles fun s => ∃ k, some' k s where
  asks s := fun ⟨k, held⟩ => ⟨k, (each k).asks s held⟩
  took s index connection packet rest := fun ⟨k, held⟩ fd queue =>
    ⟨k, (each k).took s index connection packet rest held fd queue⟩
  close s index := fun ⟨k, held⟩ fd owner => ⟨k, (each k).close s index held fd owner⟩
  lose s index := fun ⟨k, held⟩ fd owner => ⟨k, (each k).lose s index held fd owner⟩
  event s index := fun ⟨k, held⟩ fd role => ⟨k, (each k).event s index held fd role⟩
  told s index packet := fun ⟨k, held⟩ fd plain => ⟨k, (each k).told s index packet held fd plain⟩
  counts s := fun ⟨k, held⟩ => ⟨k, (each k).counts s held⟩
  moves s index change := fun ⟨k, held⟩ same => ⟨k, (each k).moves s index change held same⟩
  begins s index := fun ⟨k, held⟩ fd free => ⟨k, (each k).begins s index held fd free⟩
  ends s := fun ⟨k, held⟩ => ⟨k, (each k).ends s held⟩

/-- A property that a connection keeps when it gets its role. -/
def Greets (holds : Server → Prop) : Prop :=
  ∀ s index role sources, holds s → role ≠ 0 →
    holds (s.modify index fun c => { c with role := role, sources := sources })

/-- A property that the reply keeps that grants a REFRESH. -/
def Grants (holds : Server → Prop) : Prop :=
  ∀ s index request, holds s → (s.clients index).fd ≠ none →
    holds (s.push index ⟨.reply .refresh, request, controlOk, s.generation, .none⟩)

/-- A property of the lease's deadlines, whatever they are set to. -/
def Timeless (holds : Server → Prop) : Prop :=
  ∀ s hard idle, holds s → holds { s with hardUntil := hard, idleUntil := idle }

/-- A property that executions under authority keep. -/
def Executes (holds : Server → Prop) : Prop :=
  ∀ s index token data, holds s → authorized index token s = true →
    holds (execute index token data s)

namespace Talks

variable (talks : Talks holds) {s : Server} {index : Slot}
include talks

theorem disconnect_keeps (index : Slot) (held : holds s) : holds (disconnect outside index s) :=
  Backend.disconnect_keeps talks.toStable s index held

theorem enqueue_keeps {packet : Packet} (plain : packet.Plain) (held : holds s) :
    holds (enqueue outside (disconnect outside) index packet s) :=
  enqueue_stable talks.toStable disconnect_drops (Backend.disconnect_keeps talks.toStable)
    (fun t held _ fd _ => talks.told t index packet held fd plain) held

theorem reply_keeps (index : Slot) (kind : Request) (request code : UInt32) (held : holds s)
    (other : kind ≠ .refresh ∨ code ≠ controlOk := by simp) :
    holds (reply outside index kind request code s) :=
  talks.enqueue_keeps ⟨by simp, fun refresh => other.resolve_left fun differs => differs (by simpa using refresh)⟩
    held

theorem broadcast_keeps (bytes : List UInt8) (source : Source) (held : holds s) :
    holds (controlBroadcast outside bytes source s) := by
  unfold controlBroadcast
  refine List.foldlRecOn _ _ (talks.counts s held) fun t held i _ => ?_
  by_cases told : (t.clients i).fd ≠ none ∧ (t.clients i).sources &&& source.bit ≠ 0
  · rw [if_pos told]
    exact talks.enqueue_keeps ⟨by simp, by simp⟩ held
  · rwa [if_neg told]

theorem deliver_keeps (deliveries : List (List UInt8 × Source)) (held : holds s) :
    holds (deliver outside deliveries s) := by
  unfold deliver
  exact List.foldlRecOn _ _ held fun t held delivery _ => talks.broadcast_keeps _ _ held

theorem releaseOwner_keeps (held : holds s) : holds (releaseOwner outside s) :=
  Backend.releaseOwner_keeps talks.toStable (talks.ends s held)

theorem hello_keeps (greets : Greets holds) (request role : UInt32) (data : List UInt8) (held : holds s) :
    holds (hello outside index request role data s) := by
  unfold hello
  by_cases named : (s.clients index).role ≠ 0 ∨ data.length ≠ 4 ∨ role < controlDesk
      ∨ controlReader < role
  · rw [if_pos named]
    exact talks.disconnect_keeps index held
  rw [if_neg named]
  split_ifs
  · exact talks.disconnect_keeps index held
  · have known : role ≠ 0 := by
      rintro rfl
      exact named (Or.inr (Or.inr (Or.inl (by decide))))
    exact talks.enqueue_keeps ⟨by simp [Server.leaseEvent], by simp [Server.leaseEvent]⟩
      (talks.enqueue_keeps ⟨by simp, by simp⟩
      (greets s index role (get32 data) held known))

theorem endLease_keeps (request : UInt32) (token : UInt64) (held : holds s) :
    holds (endLease outside index request token s) := by
  unfold endLease
  split_ifs
  · exact talks.reply_keeps _ _ _ _ (talks.releaseOwner_keeps held)
  · exact talks.reply_keeps _ _ _ _ held

theorem refused_keeps (request : UInt32) (held : holds s) :
    holds (requestRefresh.refused outside index request s) := by
  unfold requestRefresh.refused
  refine talks.reply_keeps _ _ _ _ ?_ (Or.inr (by decide))
  split_ifs
  · exact talks.moves s index _ held fun _ => ⟨rfl, rfl, rfl, fun _ => rfl⟩
  · exact held

end Talks

namespace Handles

variable (handles : Handles holds) {s : Server} {index : Slot}
include handles

theorem beginLease_keeps (timeless : Timeless holds) (request : UInt32) (held : holds s)
    (fd : (s.clients index).fd ≠ none) : holds (beginLease outside index request s) := by
  unfold beginLease
  by_cases role : (s.clients index).role ≠ controlDesk
  · rw [if_pos role]
    exact handles.reply_keeps _ _ _ _ held
  rw [if_neg role]
  by_cases owned : s.owner ≠ none
  · rw [if_pos owned]
    exact handles.reply_keeps _ _ _ _ held
  rw [if_neg owned]
  have begun := handles.begins s index held fd (not_ne_iff.mp owned)
  have asked := handles.asks _ (handles.asks _ begun)
  have timed := timeless _ (outside.now s.asked + leaseTotal) (outside.now (s.asked + 1) + leaseIdle)
    asked
  refine stateChanged_keeps handles.toStable disconnect_drops
    (Backend.disconnect_keeps handles.toStable) ?_
  exact handles.reply_keeps index .begin request controlOk timed

theorem keepalive_keeps (timeless : Timeless holds) (request : UInt32) (token : UInt64)
    (held : holds s) : holds (keepalive outside index request token s) := by
  unfold keepalive
  split_ifs
  · exact handles.reply_keeps _ _ _ _ (timeless s.next s.hardUntil _ (handles.asks s held))
  · exact handles.reply_keeps _ _ _ _ held

theorem write_keeps (timeless : Timeless holds) (executes : Executes holds) (request : UInt32)
    (token : UInt64) (data : List UInt8) (held : holds s) : holds (write outside index request token data s) := by
  unfold write
  split_ifs with denied invalid
  · exact handles.reply_keeps _ _ _ _ held
  · exact handles.reply_keeps _ _ _ _ held
  · have authority : authorized index token s = true := by
      unfold authorized
      simpa only [Bool.not_eq_true', Bool.not_eq_false] using denied
    have executed := handles.asks _ (executes s index token data held authority)
    have delivered : holds (deliver outside (outside.command s.asked data).broadcasts
        (execute index token data s).next) := handles.deliver_keeps _ executed
    dsimp only
    generalize deliver outside _ (execute index token data s).next = later at delivered
    refine handles.reply_keeps _ _ _ _ ?_
    by_cases lease : hasLease index token later = true
    · rw [if_pos lease]
      exact timeless later.next later.hardUntil _ (handles.asks later delivered)
    · rwa [if_neg lease]

end Handles

/-! ### A whole dispatch -/

section Dispatch

variable {s : Server} {index : Slot}

/-- The lease and the clock allow a REFRESH. -/
def Granted (outside : Outside) (index : Slot) (token : UInt64) (s : Server) : Prop :=
  (s.owner = none ∨ hasLease index token s = true) ∧ s.refreshUntil ≤ outside.now s.asked

theorem requestRefresh_denied {token : UInt64} {request : UInt32}
    (denied : ¬ Granted outside index token s) :
    requestRefresh outside index request token s = requestRefresh.refused outside index request s
      ∨ requestRefresh outside index request token s
        = requestRefresh.refused outside index request s.next := by
  unfold requestRefresh
  dsimp only
  by_cases owned : s.owner ≠ none ∧ (!hasLease index token s) = true
  · exact Or.inl (if_pos owned)
  rw [if_neg owned]
  refine Or.inr (if_pos (not_le.mp fun late => denied ⟨?_, late⟩))
  by_cases free : s.owner = none
  · exact Or.inl free
  · refine Or.inr ?_
    rw [← Bool.not_eq_false]
    exact fun lost => owned ⟨free, by rw [lost]; rfl⟩

theorem requestRefresh_granted {token : UInt64} {request : UInt32} (granted : Granted outside index token s) :
    requestRefresh outside index request token s
      = if ((reply outside index .refresh request controlOk s.next).clients index).fd ≠ none then
          refresh outside (reply outside index .refresh request controlOk s.next)
        else reply outside index .refresh request controlOk s.next := by
  unfold requestRefresh
  dsimp only
  rw [if_neg, if_neg (not_lt.mpr granted.2)]
  rintro ⟨owned, lost⟩
  rcases granted.1 with free | lease
  · exact owned free
  · rw [lease] at lost
    cases lost

/-- What windows keep as well is kept by a REFRESH, if the reply that grants it keeps it. -/
theorem requestRefresh_keeps (talks : Talks holds) {token : UInt64} {request : UInt32}
    (replied : Granted outside index token s →
      holds (reply outside index .refresh request controlOk s.next))
    (refreshes : ∀ t, holds t → holds (refresh outside t)) (held : holds s) :
    holds (requestRefresh outside index request token s) := by
  by_cases granted : Granted outside index token s
  · rw [requestRefresh_granted granted]
    split_ifs
    · exact refreshes _ (replied granted)
    · exact replied granted
  · rcases @requestRefresh_denied outside s index token request granted with same | same
    · rw [same]
      exact talks.refused_keeps request held
    · rw [same]
      exact talks.refused_keeps request (talks.asks s held)

/-- A property that every packet keeps is kept by the reply that grants a REFRESH. -/
theorem Grants.replied (grants : Grants holds) (talks : Talks holds) (request : UInt32) (held : holds s) :
    holds (reply outside index .refresh request controlOk s.next) := by
  refine enqueue_stable talks.toStable disconnect_drops (Backend.disconnect_keeps talks.toStable)
    (fun t held drained fd _ => ?_) (talks.asks s held)
  rw [← drained.generation]
  exact grants t index request held fd

/-- The requests other than HELLO, if a WRITE and a REFRESH keep the property. -/
theorem serve_keeps (handles : Handles holds) (timeless : Timeless holds) {frame : Frame}
    (writes : frame.kind = some .write →
      holds (write outside index frame.request frame.token frame.data s))
    (refreshes : frame.kind = some .refresh →
      holds (requestRefresh outside index frame.request frame.token s))
    (held : holds s) (fd : (s.clients index).fd ≠ none) : holds (serve outside index frame s) := by
  unfold serve
  cases kind : frame.kind with
  | none => exact handles.disconnect_keeps index held
  | some request =>
      cases request with
      | hello => exact handles.disconnect_keeps index held
      | begin => exact handles.beginLease_keeps timeless _ held fd
      | «end» => exact handles.endLease_keeps _ _ held
      | keepalive => exact handles.keepalive_keeps timeless _ _ held
      | write => exact writes kind
      | refresh => exact refreshes kind

/-- A request whose number has been counted. -/
def counted (index : Slot) (frame : Frame) (s : Server) : Server :=
  s.modify index fun c => { c with request := frame.request }

/-- A request that is served, and neither dropped nor a HELLO. -/
structure Served (index : Slot) (frame : Frame) (s : Server) : Prop where
  fd : (s.clients index).fd ≠ none
  number : ¬ (frame.request = 0 ∨ (s.clients index).request = 0xffffffff
    ∨ frame.request ≠ (s.clients index).request + 1)
  kind : frame.kind ≠ some .hello
  plain : ¬ (((counted index frame s).clients index).role = 0 ∨ frame.code ≠ 0
    ∨ (frame.kind ≠ some .write ∧ frame.data ≠ []))

theorem counted_fd {frame : Frame} (served : Served index frame s) :
    ((counted index frame s).clients index).fd ≠ none := by
  simpa [counted, Server.modify] using served.fd

theorem dispatch_served {frame : Frame} (served : Served index frame (controlTick outside s)) :
    dispatch outside index (some frame) s
      = serve outside index frame (counted index frame (controlTick outside s)) := by
  unfold dispatch
  dsimp only
  rw [if_neg served.fd, if_neg served.number, if_neg served.kind]
  exact if_neg served.plain

/-- One received packet, once the clock has been kept and if a HELLO and what is served keep the
property. -/
theorem dispatch_keeps (talks : Talks holds) {packet : Option Frame}
    (ticked : holds (controlTick outside s))
    (greeted : ∀ (frame : Frame) t, holds t → (t.clients index).fd ≠ none →
      holds (hello outside index frame.request frame.code frame.data t))
    (served : ∀ frame, packet = some frame → Served index frame (controlTick outside s) →
      holds (counted index frame (controlTick outside s)) →
      holds (serve outside index frame (counted index frame (controlTick outside s)))) :
    holds (dispatch outside index packet s) := by
  unfold dispatch
  generalize controlTick outside s = later at ticked served
  dsimp only
  by_cases fd : (later.clients index).fd = none
  · rwa [if_pos fd]
  rw [if_neg fd]
  cases packet with
  | none => exact talks.disconnect_keeps index ticked
  | some frame =>
      have numbered : holds (counted index frame later) :=
        talks.moves later index _ ticked fun _ => ⟨rfl, rfl, rfl, id⟩
      dsimp only
      split_ifs with number kind plain
      · exact talks.disconnect_keeps index ticked
      · exact greeted frame _ numbered (by simpa [Server.modify] using fd)
      · exact talks.disconnect_keeps index numbered
      · exact served frame rfl ⟨fd, number, kind, plain⟩ numbered

/-- The same, where the clock keeps the property too. -/
theorem Handles.dispatch_keeps (handles : Handles holds) (ticks : Ticks outside holds) (grants : Grants holds)
    (timeless : Timeless holds) (executes : Executes holds) {packet : Option Frame}
    (greeted : ∀ (frame : Frame) t, holds t → (t.clients index).fd ≠ none →
      holds (hello outside index frame.request frame.code frame.data t))
    (held : holds s) : holds (dispatch outside index packet s) := by
  refine Backend.dispatch_keeps handles.toTalks (ticks.controlTick_keeps held) greeted
    fun frame _ served counted => ?_
  refine serve_keeps handles timeless (fun _ => handles.write_keeps timeless executes _ _ _ counted) (fun _ => ?_)
    counted (counted_fd served)
  exact requestRefresh_keeps handles.toTalks (fun _ => grants.replied handles.toTalks _ counted) ticks.refreshes
    counted

/-! ### A whole action -/

/-- A request is served as the server stands past the clock, its number counted. -/
def atService (outside : Outside) (index : Slot) (frame : Frame) (s : Server) : Server :=
  counted index frame (controlTick outside s)

/-- The action is a request that is served. -/
structure Serving (outside : Outside) (s : Server) (action : Action) (index : Slot) (frame : Frame) :
    Prop where
  action : action = .receive index (.packet (some frame))
  fd : (s.clients index).fd ≠ none
  served : Served index frame (controlTick outside s)

theorem act_served {action : Action} {frame : Frame} (serving : Serving outside s action index frame) :
    act outside s action = serve outside index frame (atService outside index frame s) := by
  rw [serving.action, atService, ← dispatch_served serving.served]
  exact if_neg serving.fd

/-- Where no request is served, requests need not keep the property. -/
theorem act_keeps (talks : Talks holds)
    (greeted : ∀ index (frame : Frame) t, holds t → (t.clients index).fd ≠ none →
      holds (hello outside index frame.request frame.code frame.data t))
    {action : Action} (accepts : action = .accept → holds (acceptClient outside s)) (held : holds s)
    (ticked : holds (controlTick outside s))
    (idle : ∀ index frame, ¬ Serving outside s action index frame) : holds (act outside s action) := by
  cases action with
  | tick => exact ticked
  | accept => exact accepts rfl
  | hangUp index =>
      show holds (disconnect outside index s)
      exact talks.disconnect_keeps index held
  | writable index =>
      show holds (flush outside (disconnect outside) index s)
      exact flush_keeps talks.toStable (disconnect_keeps talks.toStable) index held
  | report bytes source =>
      show holds (controlBroadcast outside bytes source s)
      exact talks.broadcast_keeps bytes source held
  | receive index received =>
      show holds (receive outside index received s)
      unfold receive
      by_cases fd : (s.clients index).fd = none
      · rwa [if_pos fd]
      rw [if_neg fd]
      cases received with
      | nothing => exact held
      | ended =>
          show holds (disconnect outside index s)
          exact talks.disconnect_keeps index held
      | packet packet =>
          show holds (dispatch outside index packet s)
          refine dispatch_keeps talks ticked (greeted index) fun frame same served _ => ?_
          subst same
          exact absurd ⟨rfl, fd, served⟩ (idle index frame)

end Dispatch

/-- A property that the server keeps whatever it does, a new connection apart. -/
structure Turns (outside : Outside) (holds : Server → Prop) : Prop extends Handles holds where
  opens : ∀ s until', holds s → holds (s.opened until')
  closes : ∀ s, holds s → holds { s with refreshing := false }
  window : ∀ s index code, holds s → (s.clients index).fd ≠ none → (s.clients index).role ≠ 0 →
    code = controlOk ∨ code = controlBusy → holds (s.push index ⟨.window, 0, code, s.window, .none⟩)
  greets : Greets holds
  grants : Grants holds
  timeless : Timeless holds
  executes : Executes holds

theorem Turns.serves (turns : Turns outside holds) : Serves outside holds where
  toStable := turns.toStable
  opens := turns.opens
  closes := turns.closes
  window := turns.window
  handled _ _ delivery _ _ held := turns.toTalks.broadcast_keeps delivery.1 delivery.2 held

theorem Turns.act_keeps (turns : Turns outside holds) {s : Server} (action : Action)
    (accepts : action = .accept → holds (acceptClient outside s)) (held : holds s) :
    holds (act outside s action) := by
  have handles := turns.toHandles
  have ticked : holds (controlTick outside s) := turns.serves.controlTick_keeps held
  by_cases idle : ∀ index frame, ¬ Serving outside s action index frame
  · exact Backend.act_keeps handles.toTalks
      (fun _ _ _ held _ => handles.hello_keeps turns.greets _ _ _ held) accepts held ticked idle
  · obtain ⟨index, frame, serving⟩ : ∃ index frame, Serving outside s action index frame := by
      simpa using idle
    have counted : holds (atService outside index frame s) := by
      unfold atService counted
      exact handles.moves _ index _ ticked fun _ => ⟨rfl, rfl, rfl, id⟩
    rw [act_served serving]
    refine serve_keeps handles turns.timeless
      (fun _ => handles.write_keeps turns.timeless turns.executes _ _ _ counted) (fun _ => ?_) counted
      (counted_fd serving.served)
    exact requestRefresh_keeps handles.toTalks
      (fun _ => turns.grants.replied handles.toTalks _ counted)
      (fun _ held => turns.serves.refresh_keeps held) counted

/-- A property that the server keeps whatever it does. -/
structure Always (outside : Outside) (holds : Server → Prop) : Prop extends Handles holds where
  opens : ∀ s until', holds s → holds (s.opened until')
  closes : ∀ s, holds s → holds { s with refreshing := false }
  window : ∀ s index code, holds s → (s.clients index).fd ≠ none → (s.clients index).role ≠ 0 →
    code = controlOk ∨ code = controlBusy → holds (s.push index ⟨.window, 0, code, s.window, .none⟩)
  greets : Greets holds
  grants : Grants holds
  timeless : Timeless holds
  executes : Executes holds
  accepts : ∀ s, holds s → holds (acceptClient outside s)

theorem Always.turns (always : Always outside holds) : Turns outside holds where
  toHandles := always.toHandles
  opens := always.opens
  closes := always.closes
  window := always.window
  greets := always.greets
  grants := always.grants
  timeless := always.timeless
  executes := always.executes

theorem Always.serves (always : Always outside holds) : Serves outside holds :=
  always.turns.serves

theorem Always.act_keeps (always : Always outside holds) {s : Server} (action : Action) (held : holds s) :
    holds (act outside s action) :=
  always.turns.act_keeps action (fun _ => always.accepts s held) held

end OscmixDesk.Backend
