/-
**When the GTK mixer edits.**

The mixer sends an edit only while it is connected, the last lease event says free, no window is open, and
its view is fresh (`Current`): a window that opened after the last lease ended and after its last refused
edit has closed, and the device was heard inside it. The flag `fresh` is set by any window that closes, so
a lease that ends while one is open, or unannounced, leaves a view that only looks fresh (`Untimely`,
`edit_onStaleView`). Where that does not happen, every edit is on a fresh view (`editsFresh`).
-/

import OscmixDesk.Model.Mixer
import OscmixDesk.Proof.Streams

namespace OscmixDesk.Backend

variable {outside : Outside}

/-! ### What the server sends, in outline -/

/-- Whether a connection has heard of the lease, and whether its last window is closed. -/
structure Outline where
  leased : Bool := false
  closed : Bool := false
  deriving DecidableEq, Repr

/-- No window before the first lease event, and no window closed twice. -/
def outlineReader : Reader Outline where
  start := {}
  step outline packet :=
    match packet.kind with
    | .event => some { outline with leased := true }
    | .window =>
        if !outline.leased then none
        else if packet.code = controlBusy then some { outline with closed := false }
        else if outline.closed then none
        else some { outline with closed := true }
    | _ => some outline
  silent outline := outline.closed = false

/-- A connection with a role has heard of the lease, and of an open window not that it is closed. -/
def Outlined (refreshing : Bool) (_window : UInt64) (outline : Outline) : Prop :=
  outline.leased = true ∧ (refreshing = true → outline.closed = false)

/-- What is no window leaves what is known of the windows. -/
theorem outlineReader_plain {packet : Packet} (plain : packet.kind ≠ .window) (outline : Outline) :
    ∃ leased, outlineReader.step outline packet = some { outline with leased := leased }
      ∧ (outline.leased = true → leased = true) := by
  obtain ⟨kind, request, code, sequence, payload⟩ := packet
  cases kind with
  | window => exact absurd rfl plain
  | reply _ => exact ⟨outline.leased, rfl, id⟩
  | event => exact ⟨true, rfl, fun _ => rfl⟩
  | observation => exact ⟨outline.leased, rfl, id⟩

theorem outline_fits : outlineReader.Fits Outlined where
  start := rfl
  stays refreshing window outline packet plain := by
    obtain ⟨leased, step, still⟩ := outlineReader_plain plain outline
    exact ⟨_, step, id, fun outlined => ⟨still outlined.1, outlined.2⟩⟩
  closes window outline outlined := by
    obtain ⟨leased, closed⟩ := outlined
    refine ⟨{ outline with closed := true }, ?_, leased, fun shut => by cases shut⟩
    simp [outlineReader, leased, closed rfl, controlOk, controlBusy]

theorem outline_opens (refreshing : Bool) (window : UInt64) :
    outlineReader.Opens Outlined refreshing window := by
  intro outline outlined
  refine ⟨{ outline with closed := false }, ?_, outlined.1, fun _ => rfl⟩
  simp [outlineReader, outlined.1]

/-- Every connection of every run hears of the lease before it hears of a window, and of no window twice
that it is closed. -/
theorem outline_run (outside : Outside) (actions : List Action) (connection : ℕ) :
    (outlineReader.read ((run outside actions {}).wires connection)).isSome := by
  have start : Attends outlineReader Outlined {} :=
    ⟨_, sound_start, rfl, fun _ _ known => by simp at known, fun _ => rfl⟩
  have attends : Attends outlineReader Outlined (run outside actions {}) := by
    refine run_keeps start fun before action after _ attends => ?_
    refine act_attends outline_fits (outline_opens false _) (fun index frame t attends _ => ?_)
      (fun _ _ _ _ _ => outline_opens _ _) attends
    refine hello_attends outline_fits (fun opened window outline packet event silent => ?_) _ _ _ _ attends
    refine ⟨{ outline with leased := true }, ?_, rfl, fun _ => silent⟩
    obtain ⟨kind, request, code, sequence, payload⟩ := packet
    cases event
    rfl
  obtain ⟨hour, heard⟩ := attends
  exact heard.gone connection

/-! ### What the mixer has read -/

/-- The last packet of a kind. -/
def lastOf (kind : Kind) (heard : List Packet) : Option Packet :=
  (heard.filter fun packet => packet.kind = kind).getLast?

theorem lastOf_append (kind : Kind) (heard : List Packet) (packet : Packet) :
    lastOf kind (heard ++ [packet])
      = if packet.kind = kind then some packet else lastOf kind heard := by
  unfold lastOf
  rw [List.filter_append]
  by_cases same : packet.kind = kind
  · rw [if_pos same]
    simp [same]
  · rw [if_neg same]
    simp [same]

/-- The packet says that a lease has ended: nobody has one, and the last lease event said otherwise or was
of an earlier lease. -/
def Ends (heard : List Packet) (packet : Packet) : Prop :=
  packet.kind = .event ∧ packet.code = controlOk ∧ ∃ last, lastOf .event heard = some last
    ∧ (last.code = controlBusy ∨ last.sequence ≠ packet.sequence)

/-- The packet says that an edit was refused. -/
def Refuses (packet : Packet) : Prop :=
  packet.kind = .reply .write ∧ packet.code ≠ controlOk

/-- After these packets none of the others says that a lease has ended or an edit was refused. -/
def Undisturbed (heard later : List Packet) : Prop :=
  ∀ before packet after, later = before ++ packet :: after →
    ¬ Ends (heard ++ before) packet ∧ ¬ Refuses packet

/-- A device report was heard. -/
def Reported (packets : List Packet) : Prop :=
  ∃ packet ∈ packets, packet.kind = .observation ∧ packet.code = Source.device.bit

/-- The last window opened undisturbed; what was heard in it. -/
def Opened (heard inside : List Packet) (window : UInt64) : Prop :=
  ∃ before opening, heard = before ++ opening :: inside ∧ opening.kind = .window
    ∧ opening.code = controlBusy ∧ opening.sequence = window
    ∧ Undisturbed (before ++ [opening]) inside

/-- A window opened, the device was heard, the window closed, and nothing disturbed it since it opened. -/
def Refreshed (heard : List Packet) : Prop :=
  ∃ before opening inside closing after, heard = before ++ opening :: (inside ++ closing :: after)
    ∧ opening.kind = .window ∧ opening.code = controlBusy
    ∧ closing.kind = .window ∧ closing.code = controlOk ∧ closing.sequence = opening.sequence
    ∧ Reported inside ∧ Undisturbed (before ++ [opening]) (inside ++ closing :: after)

/-- An edit on a fresh view. -/
structure Current (heard : List Packet) (frame : Frame) : Prop where
  lease : ∃ event, lastOf .event heard = some event ∧ event.code = controlOk
    ∧ frame.token = event.sequence
  window : ∀ event, lastOf .window heard = some event → event.code ≠ controlBusy
  refreshed : Refreshed heard

theorem Undisturbed.append {heard later : List Packet} {packet : Packet} (calm : Undisturbed heard later)
    (ends : ¬ Ends (heard ++ later) packet) (refuses : ¬ Refuses packet) :
    Undisturbed heard (later ++ [packet]) := by
  intro before other after whole
  rcases List.eq_nil_or_concat after with rfl | ⟨rest, last, rfl⟩
  · obtain ⟨rfl, same⟩ := List.append_inj' whole rfl
    obtain rfl := List.singleton_inj.mp same
    exact ⟨ends, refuses⟩
  · refine calm before other rest ?_
    rw [List.concat_eq_append, ← List.cons_append, ← List.append_assoc] at whole
    exact (List.append_inj' whole rfl).1

theorem Opened.append {heard inside : List Packet} {window : UInt64} {packet : Packet}
    (opened : Opened heard inside window) (ends : ¬ Ends heard packet) (refuses : ¬ Refuses packet) :
    Opened (heard ++ [packet]) (inside ++ [packet]) window := by
  obtain ⟨before, opening, rfl, kind, code, sequence, calm⟩ := opened
  refine ⟨before, opening, by simp, kind, code, sequence, calm.append ?_ refuses⟩
  rwa [List.append_assoc, List.singleton_append]

theorem Refreshed.append {heard : List Packet} {packet : Packet} (refreshed : Refreshed heard)
    (ends : ¬ Ends heard packet) (refuses : ¬ Refuses packet) : Refreshed (heard ++ [packet]) := by
  obtain ⟨before, opening, inside, closing, after, rfl, kind, code, kind', code', same, reported, calm⟩ :=
    refreshed
  refine ⟨before, opening, inside, closing, after ++ [packet], by simp, kind, code, kind', code', same,
    reported, ?_⟩
  have plain : ¬ Ends ((before ++ [opening]) ++ (inside ++ closing :: after)) packet := by
    rwa [List.append_assoc, List.singleton_append]
  have more := calm.append plain refuses
  rwa [List.append_assoc, List.cons_append] at more

/-- A window that closes under its number, with a device report inside. -/
theorem Opened.closed {heard inside : List Packet} {closing : Packet}
    (opened : Opened heard inside closing.sequence) (kind : closing.kind = .window)
    (code : closing.code = controlOk) (reported : Reported inside) : Refreshed (heard ++ [closing]) := by
  obtain ⟨before, opening, rfl, kind', code', sequence, calm⟩ := opened
  refine ⟨before, opening, inside, closing, [], by simp, kind', code', kind, code, sequence.symm, reported,
    calm.append ?_ ?_⟩
  · rintro ⟨event, -⟩
    rw [kind] at event
    cases event
  · rintro ⟨reply, -⟩
    rw [kind] at reply
    cases reply

/-! ### What the flags of the mixer say -/

/-- The flags fit what was read. -/
structure Knows (heard : List Packet) (m : Mixer) : Prop where
  lease : ∀ event, lastOf .event heard = some event → (m.busy = true ↔ event.code = controlBusy)
    ∧ m.generation = event.sequence ∧ (event.code = controlOk ∨ event.code = controlBusy)
  window : m.refreshing = false → ∀ event, lastOf .window heard = some event → event.code ≠ controlBusy
  opened : m.refreshing = true → ∃ inside, Opened heard inside m.window
    ∧ (m.windowData = true → Reported inside)
  closed : m.refreshing = false → m.windowData = true →
    ∀ outline, outlineReader.read heard = some outline → outline.closed = true
  fresh : m.fresh = true → Refreshed heard

/-- The same flags, or a lost connection. -/
structure Mixer.Kept (m m' : Mixer) : Prop where
  busy : m'.busy = m.busy
  generation : m'.generation = m.generation
  window : m'.window = m.window
  refreshing : m'.refreshing = m.refreshing
  windowData : m'.windowData = m.windowData
  fresh : m'.fresh = true → m.fresh = true
  connected : m'.connected = true → m.connected = true ∧ m'.socket = m.socket
  socket : m'.socket = true → m.socket = true ∧ m'.connected = m.connected

section Mixer

variable {identity : Identity} {m m' : Mixer} {heard : List Packet} {packet : Packet}

theorem Knows.kept (knows : Knows heard m) (kept : m.Kept m') : Knows heard m' where
  lease event last := by
    rw [kept.busy, kept.generation]
    exact knows.lease event last
  window := by
    rw [kept.refreshing]
    exact knows.window
  opened := by
    rw [kept.refreshing, kept.window, kept.windowData]
    exact knows.opened
  closed := by
    rw [kept.refreshing, kept.windowData]
    exact knows.closed
  fresh held := knows.fresh (kept.fresh held)

theorem kept_refl (m : Mixer) : m.Kept m :=
  ⟨rfl, rfl, rfl, rfl, rfl, id, fun held => ⟨held, rfl⟩, fun held => ⟨held, rfl⟩⟩

theorem kept_disconnect (m : Mixer) : m.Kept m.disconnectBackend where
  busy := rfl
  generation := rfl
  window := rfl
  refreshing := rfl
  windowData := rfl
  fresh held := by cases held
  connected held := by cases held
  socket held := by cases held

theorem kept_send (taken : Bool) (kind : Request) (code : UInt32) (data : List UInt8) (m : Mixer) :
    m.Kept (m.sendControl taken kind code data).1 := by
  unfold Mixer.sendControl
  split_ifs
  · exact kept_refl m
  · exact kept_disconnect m
  · exact ⟨rfl, rfl, rfl, rfl, rfl, id, fun held => ⟨held, rfl⟩, fun held => ⟨held, rfl⟩⟩
  · obtain ⟨busy, generation, window, refreshing, windowData, fresh, connected, socket⟩ := kept_disconnect m
    exact ⟨busy, generation, window, refreshing, windowData, fresh, connected, socket⟩

theorem kept_request (taken : Bool) (m : Mixer) : m.Kept (m.requestRefresh taken).1 := by
  unfold Mixer.requestRefresh
  split_ifs
  · have kept := kept_send taken .refresh 0 [] { m with refreshQueued := true }
    exact ⟨kept.busy, kept.generation, kept.window, kept.refreshing, kept.windowData, kept.fresh,
      kept.connected, kept.socket⟩
  · exact kept_refl m

/-- What is no window leaves the outline of the windows. -/
theorem closed_plain (plain : packet.kind ≠ .window) {outline : Outline}
    (read : outlineReader.read (heard ++ [packet]) = some outline) :
    ∃ before, outlineReader.read heard = some before ∧ outline.closed = before.closed := by
  rw [outlineReader.read_append] at read
  obtain ⟨before, read, step⟩ := Option.bind_eq_some_iff.mp read
  obtain ⟨leased, step', -⟩ := outlineReader_plain plain before
  refine ⟨before, read, ?_⟩
  rw [step] at step'
  rw [Option.some_inj.mp step']

theorem Reported.append {inside : List Packet} (reported : Reported inside) (packet : Packet) :
    Reported (inside ++ [packet]) := by
  obtain ⟨report, member, kind, code⟩ := reported
  exact ⟨report, List.mem_append_left _ member, kind, code⟩

/-- A packet that is neither a window nor a lease event, and refuses nothing. -/
theorem Knows.plain (knows : Knows heard m) (window : packet.kind ≠ .window) (event : packet.kind ≠ .event)
    (refuses : ¬ Refuses packet) : Knows (heard ++ [packet]) m := by
  have ends : ¬ Ends heard packet := fun ends => event ends.1
  refine ⟨?_, ?_, fun refreshing => ?_, fun closed data outline read => ?_, fun fresh => ?_⟩
  · rw [lastOf_append, if_neg event]
    exact knows.lease
  · rw [lastOf_append, if_neg window]
    exact knows.window
  · obtain ⟨inside, opened, reported⟩ := knows.opened refreshing
    exact ⟨inside ++ [packet], opened.append ends refuses, fun data => (reported data).append packet⟩
  · obtain ⟨before, read, same⟩ := closed_plain window read
    rw [same]
    exact knows.closed closed data before read
  · exact (knows.fresh fresh).append ends refuses

/-- An edit is refused while no window is open. -/
theorem Knows.refused (knows : Knows heard m) (reply : packet.kind = .reply .write)
    (closed : m.refreshing = false) : Knows (heard ++ [packet]) { m with fresh := false } := by
  have window : packet.kind ≠ .window := by simp [reply]
  refine ⟨?_, ?_, fun refreshing => ?_, fun closed data outline read => ?_, fun fresh => ?_⟩
  · rw [lastOf_append, if_neg (by simp [reply])]
    exact knows.lease
  · rw [lastOf_append, if_neg window]
    exact knows.window
  · exact absurd (closed.symm.trans refreshing) (by simp)
  · obtain ⟨before, read, same⟩ := closed_plain window read
    rw [same]
    exact knows.closed closed data before read
  · cases fresh

/-- A lease event, where no lease ends while a window is open or without a word before. -/
theorem Knows.event (knows : Knows heard m) (event : packet.kind = .event)
    (code : packet.code = controlOk ∨ packet.code = controlBusy)
    (same : m'.generation = packet.sequence ∧ m'.window = m.window ∧ m'.refreshing = m.refreshing
      ∧ m'.windowData = m.windowData)
    (busy : m'.busy = true ↔ packet.code = controlBusy)
    (calm : Ends heard packet → m.refreshing = false ∧ m'.fresh = false)
    (fresh : m'.fresh = true → m.fresh = true) : Knows (heard ++ [packet]) m' := by
  obtain ⟨generation, number, refreshing, data⟩ := same
  have window : packet.kind ≠ .window := by simp [event]
  have refuses : ¬ Refuses packet := fun refuses => by simp [event, Refuses] at refuses
  refine ⟨?_, ?_, fun opened => ?_, fun closed data' outline read => ?_, fun held => ?_⟩
  · rw [lastOf_append, if_pos event]
    intro last same
    obtain rfl := Option.some_inj.mp same
    exact ⟨busy, generation, code⟩
  · rw [lastOf_append, if_neg window, refreshing]
    exact knows.window
  · rw [refreshing] at opened
    obtain ⟨inside, opened', reported⟩ := knows.opened opened
    have ends : ¬ Ends heard packet := fun ends => by
      rw [(calm ends).1] at opened
      cases opened
    rw [number, data]
    exact ⟨inside ++ [packet], opened'.append ends refuses, fun data => (reported data).append packet⟩
  · obtain ⟨before, read, same⟩ := closed_plain window read
    rw [refreshing] at closed
    rw [data] at data'
    rw [same]
    exact knows.closed closed data' before read
  · have ends : ¬ Ends heard packet := fun ends => by
      rw [(calm ends).2] at held
      cases held
    exact (knows.fresh (fresh held)).append ends refuses

theorem Knows.opens (knows : Knows heard m) (window : packet.kind = .window)
    (code : packet.code = controlBusy) : Knows (heard ++ [packet]) { m with
      refreshQueued := false, window := packet.sequence, windowData := false, refreshing := true,
      fresh := false } := by
  refine ⟨?_, fun closed => ?_, fun _ => ⟨[], ?_, fun data => ?_⟩, fun closed => ?_, fun fresh => ?_⟩
  · rw [lastOf_append, if_neg (by simp [window])]
    exact knows.lease
  · cases closed
  · refine ⟨heard, packet, rfl, window, code, rfl, fun before other after whole => ?_⟩
    simp at whole
  · cases data
  · cases closed
  · cases fresh

/-- A window is announced closed once. -/
theorem closed_once (window : packet.kind = .window) (code : packet.code = controlOk) {outline : Outline}
    (read : outlineReader.read (heard ++ [packet]) = some outline) : outline.closed = true
      ∧ ∃ before, outlineReader.read heard = some before ∧ before.closed = false := by
  rw [outlineReader.read_append] at read
  obtain ⟨before, read', step⟩ := Option.bind_eq_some_iff.mp read
  have other : controlOk ≠ controlBusy := by decide
  simp only [outlineReader, window, code, if_neg other] at step
  split_ifs at step with silent closed
  obtain rfl := Option.some_inj.mp step
  exact ⟨rfl, before, read', by simpa using closed⟩

theorem Knows.closes (knows : Knows heard m) (window : packet.kind = .window)
    (code : packet.code = controlOk) (taken : (outlineReader.read (heard ++ [packet])).isSome)
    (same : m.window = packet.sequence) :
    Knows (heard ++ [packet]) { m with refreshing := false, fresh := m.windowData } := by
  obtain ⟨outline, read⟩ := Option.isSome_iff_exists.mp taken
  obtain ⟨-, before, read', unclosed⟩ := closed_once window code read
  refine ⟨?_, fun _ => ?_, fun opened => ?_, fun _ _ outline read => ?_, fun data => ?_⟩
  · rw [lastOf_append, if_neg (by simp [window])]
    exact knows.lease
  · rw [lastOf_append, if_pos window]
    intro event last
    obtain rfl := Option.some_inj.mp last
    rw [code]
    decide
  · cases opened
  · exact (closed_once window code read).1
  · by_cases refreshing : m.refreshing = true
    · obtain ⟨inside, opened, reported⟩ := knows.opened refreshing
      rw [same] at opened
      exact opened.closed window code (reported data)
    · have twice := knows.closed (by simpa using refreshing) data before read'
      rw [unclosed] at twice
      cases twice

/-- The end of a window the mixer did not see open. -/
theorem Knows.other (knows : Knows heard m) (window : packet.kind = .window)
    (code : packet.code = controlOk) : Knows (heard ++ [packet]) m := by
  have ends : ¬ Ends heard packet := fun ends => by simp [window, Ends] at ends
  have refuses : ¬ Refuses packet := fun refuses => by simp [window, Refuses] at refuses
  refine ⟨?_, fun _ => ?_, fun refreshing => ?_, fun _ _ outline read => ?_, fun fresh => ?_⟩
  · rw [lastOf_append, if_neg (by simp [window])]
    exact knows.lease
  · rw [lastOf_append, if_pos window]
    intro event last
    obtain rfl := Option.some_inj.mp last
    rw [code]
    decide
  · obtain ⟨inside, opened, reported⟩ := knows.opened refreshing
    exact ⟨inside ++ [packet], opened.append ends refuses, fun data => (reported data).append packet⟩
  · exact (closed_once window code read).1
  · exact (knows.fresh fresh).append ends refuses

/-- The end of a lease is read while a window is open or, with nothing read of its begin, while the view is
fresh; or the refusal of an edit is read while a window is open. -/
def Untimely (m : Mixer) (packet : Packet) : Prop :=
  (packet.kind = .event ∧ packet.code = controlOk ∧ (m.busy = true ∨ m.generation ≠ packet.sequence)
      ∧ (m.refreshing = true ∨ m.busy = false ∧ m.fresh = true))
    ∨ Refuses packet ∧ m.refreshing = true

instance (m : Mixer) (packet : Packet) : Decidable (Untimely m packet) := by
  unfold Untimely Refuses
  infer_instance

/-- What was read of the leases, as the flags have it. -/
theorem Knows.ends (knows : Knows heard m) (ends : Ends heard packet) :
    packet.kind = .event ∧ packet.code = controlOk
      ∧ (m.busy = true ∨ m.generation ≠ packet.sequence) := by
  obtain ⟨event, code, last, known, changed⟩ := ends
  obtain ⟨busy, generation, -⟩ := knows.lease last known
  refine ⟨event, code, changed.imp busy.mpr fun other same => other ?_⟩
  rw [← generation, same]

theorem Knows.failed (connected : (Mixer.onControlData.failed m).1.connected = true) :
    Knows heard (Mixer.onControlData.failed m).1 := by
  cases connected

theorem knows_leaseEvent (knows : Knows heard m) (kind : packet.kind = .event)
    (timely : ¬ Untimely m packet) (taken : Bool)
    (connected : (m.onControlData identity taken packet).1.connected = true) :
    Knows (heard ++ [packet]) (m.onControlData identity taken packet).1 := by
  have calm (ends : Ends heard packet) : m.refreshing = false ∧ (m.busy = false → m.fresh = false) := by
    obtain ⟨event, code, changed⟩ := knows.ends ends
    refine ⟨?_, fun free => ?_⟩
    · rw [Bool.eq_false_iff]
      exact fun opened => timely (Or.inl ⟨event, code, changed, Or.inl opened⟩)
    · rw [Bool.eq_false_iff]
      exact fun fresh => timely (Or.inl ⟨event, code, changed, Or.inr ⟨free, fresh⟩⟩)
  unfold Mixer.onControlData at connected ⊢
  simp only [kind] at connected ⊢
  split_ifs at connected ⊢ with lost known busy was
  · exact Knows.failed connected
  · exact Knows.failed connected
  · refine knows.event kind (Or.inr busy) ⟨rfl, rfl, rfl, rfl⟩ (by simp [busy]) (fun ends => ?_) (by simp)
    exact ⟨(calm ends).1, rfl⟩
  · have free : packet.code = controlOk := by
      simp only [not_or, not_and_or, not_not] at known
      exact known.2.1.resolve_right busy
    refine Knows.kept ?_ (kept_request taken _)
    refine knows.event kind (Or.inl free) ⟨rfl, rfl, rfl, rfl⟩ (by simp [busy]) (fun ends => ?_) (by simp)
    exact ⟨(calm ends).1, rfl⟩
  · have free : packet.code = controlOk := by
      simp only [not_or, not_and_or, not_not] at known
      exact known.2.1.resolve_right busy
    refine knows.event kind (Or.inl free) ⟨rfl, rfl, rfl, rfl⟩ (by simp [busy]) (fun ends => ?_) id
    exact ⟨(calm ends).1, (calm ends).2 (by simpa using was)⟩

theorem knows_window (knows : Knows heard m) (kind : packet.kind = .window) (taken : Bool)
    (sent : (outlineReader.read (heard ++ [packet])).isSome)
    (connected : (m.onControlData identity taken packet).1.connected = true) :
    Knows (heard ++ [packet]) (m.onControlData identity taken packet).1 := by
  unfold Mixer.onControlData at connected ⊢
  simp only [kind] at connected ⊢
  split_ifs at connected ⊢ with lost known busy same
  · exact Knows.failed connected
  · exact Knows.failed connected
  · exact knows.opens kind busy
  · simp only [not_or, not_and_or, not_not] at known
    exact knows.closes kind (known.2.resolve_right busy) sent same
  · simp only [not_or, not_and_or, not_not] at known
    exact knows.other kind (known.2.resolve_right busy)

theorem knows_observation (knows : Knows heard m) (kind : packet.kind = .observation) (taken : Bool)
    (connected : (m.onControlData identity taken packet).1.connected = true) :
    Knows (heard ++ [packet]) (m.onControlData identity taken packet).1 := by
  have ends : ¬ Ends heard packet := fun ends => by simp [kind, Ends] at ends
  have refuses : ¬ Refuses packet := fun refuses => by simp [kind, Refuses] at refuses
  have plain : Knows (heard ++ [packet]) m := knows.plain (by simp [kind]) (by simp [kind]) refuses
  unfold Mixer.onControlData at connected ⊢
  simp only [kind] at connected ⊢
  by_cases lost : (!m.connected) = true ∨ packet.request ≠ 0
  · rw [if_pos lost] at connected ⊢
    exact Knows.failed connected
  rw [if_neg lost] at connected ⊢
  by_cases known : packet.code ≠ 1 ∧ packet.code ≠ 2 ∧ packet.code ≠ 4
  · rw [if_pos known] at connected ⊢
    exact Knows.failed connected
  rw [if_neg known] at connected ⊢
  cases payload : packet.payload with
  | none =>
      rw [payload] at connected
      exact Knows.failed connected
  | hello reply =>
      rw [payload] at connected
      exact Knows.failed connected
  | osc data =>
      rw [payload] at connected
      dsimp only at connected ⊢
      split_ifs at connected ⊢ with bad report
      · exact Knows.failed connected
      · refine ⟨plain.lease, plain.window, fun opened => ?_, fun closed => ?_, plain.fresh⟩
        · obtain ⟨inside, opened', -⟩ := knows.opened opened
          refine ⟨inside ++ [packet], opened'.append ends refuses, fun _ => ?_⟩
          exact ⟨packet, List.mem_append_right _ (List.mem_singleton_self packet), kind, report.1⟩
        · exact absurd (closed.symm.trans report.2) (by simp)
      · exact plain

theorem knows_reply {request : Request} (knows : Knows heard m) (kind : packet.kind = .reply request)
    (timely : ¬ Untimely m packet) (taken : Bool) (before : m.connected = true)
    (connected : (m.onControlData identity taken packet).1.connected = true) :
    Knows (heard ++ [packet]) (m.onControlData identity taken packet).1 := by
  unfold Mixer.onControlData at connected ⊢
  simp only [kind] at connected ⊢
  split_ifs at connected ⊢ with wrong hello greeted other known refused
  · exact Knows.failed connected
  · exact Knows.failed connected
  · exact absurd (Or.inl before) greeted
  · exact Knows.failed connected
  · exact Knows.failed connected
  · obtain ⟨rfl, code⟩ := refused
    have closed : m.refreshing = false := by
      rw [Bool.eq_false_iff]
      exact fun opened => timely (Or.inr ⟨⟨kind, code⟩, opened⟩)
    refine Knows.kept ?_ (kept_request taken _)
    exact (knows.refused kind closed).kept
      ⟨rfl, rfl, rfl, rfl, rfl, id, fun held => ⟨held, rfl⟩, fun held => ⟨held, rfl⟩⟩
  · refine (knows.plain (by simp [kind]) (by simp [kind]) ?_).kept
      ⟨rfl, rfl, rfl, rfl, rfl, id, fun held => ⟨held, rfl⟩, fun held => ⟨held, rfl⟩⟩
    rintro ⟨write, code⟩
    rw [kind] at write
    cases write
    exact refused ⟨rfl, code⟩

theorem knows_packet (knows : Knows heard m) (timely : ¬ Untimely m packet)
    (sent : (outlineReader.read (heard ++ [packet])).isSome) (taken : Bool) (before : m.connected = true)
    (connected : (m.onControlData identity taken packet).1.connected = true) :
    Knows (heard ++ [packet]) (m.onControlData identity taken packet).1 := by
  cases kind : packet.kind with
  | reply request => exact knows_reply knows kind timely taken before connected
  | event => exact knows_leaseEvent knows kind timely taken connected
  | window => exact knows_window knows kind taken sent connected
  | observation => exact knows_observation knows kind taken connected

/-! ### Whole runs of the mixer -/

/-- The packets among the callbacks. -/
def packetsOf (events : List (Mixer.Event × Bool)) : List Packet :=
  events.filterMap fun event =>
    match event.1 with
    | .packet packet => some packet
    | _ => none

/-- Before it is connected the mixer has read nothing, and its flags are down. -/
structure Waits (heard : List Packet) (m : Mixer) : Prop where
  heard : heard = []
  busy : m.busy = false
  refreshing : m.refreshing = false
  fresh : m.fresh = false
  windowData : m.windowData = false

/-- What holds between two callbacks. -/
structure Told (heard : List Packet) (m : Mixer) : Prop where
  knows : m.connected = true → Knows heard m
  waits : m.connected = false → m.socket = true → Waits heard m
  socket : m.connected = true → m.socket = true

theorem Told.kept (told : Told heard m) (kept : m.Kept m') : Told heard m' where
  knows connected := (told.knows (kept.connected connected).1).kept kept
  waits lost socket := by
    obtain ⟨before, same⟩ := kept.socket socket
    obtain ⟨nothing, busy, refreshing, fresh, data⟩ := told.waits (same.symm.trans lost) before
    refine ⟨nothing, kept.busy.trans busy, kept.refreshing.trans refreshing, ?_, kept.windowData.trans data⟩
    rw [Bool.eq_false_iff]
    exact fun held => by simp [kept.fresh held] at fresh
  socket connected := by
    obtain ⟨before, same⟩ := kept.connected connected
    rw [same]
    exact told.socket before

/-- Connected, or closed. -/
def Mixer.Settled (m : Mixer) : Prop :=
  m.connected = m.socket

theorem Mixer.Settled.kept (settled : m.Settled) (kept : m.Kept m') : m'.Settled := by
  unfold Mixer.Settled at settled ⊢
  cases connected : m'.connected with
  | true =>
      obtain ⟨before, same⟩ := kept.connected connected
      rw [same, ← settled, before]
  | false =>
      symm
      rw [Bool.eq_false_iff]
      intro socket
      obtain ⟨before, same⟩ := kept.socket socket
      rw [connected, settled, before] at same
      cases same

theorem settled_request (taken : Bool) (settled : m.Settled) : (m.requestRefresh taken).1.Settled :=
  settled.kept (kept_request taken m)

theorem settled_failed (m : Mixer) : (Mixer.onControlData.failed m).1.Settled :=
  rfl

/-- A packet connects the mixer, or finds it connected, or ends its connection. -/
theorem settled_packet (identity : Identity) (taken : Bool) (packet : Packet) (socket : m.socket = true) :
    (m.onControlData identity taken packet).1.Settled := by
  have settled (connected : ¬ (!m.connected) = true) : m.Settled := by
    rw [Mixer.Settled, socket]
    simpa using connected
  unfold Mixer.onControlData
  cases packet.kind with
  | reply request =>
      dsimp only
      split_ifs with wrong hello greeted other known refused
      · exact settled_failed m
      · exact settled_failed _
      · refine settled_request taken ?_
        exact socket.symm
      · exact settled_failed _
      · exact settled_failed _
      · refine settled_request taken ?_
        exact settled (not_or.mp other).1
      · exact settled (not_or.mp other).1
  | event =>
      dsimp only
      split_ifs with lost known busy was
      · exact settled_failed m
      · exact settled_failed m
      · exact settled (not_or.mp lost).1
      · refine settled_request taken ?_
        exact settled (not_or.mp lost).1
      · exact settled (not_or.mp lost).1
  | window =>
      dsimp only
      split_ifs with lost known busy same
      · exact settled_failed m
      · exact settled_failed m
      · exact settled (not_or.mp lost).1
      · exact settled (not_or.mp lost).1
      · exact settled (not_or.mp lost).1
  | observation =>
      dsimp only
      by_cases lost : (!m.connected) = true ∨ packet.request ≠ 0
      · rw [if_pos lost]
        exact settled_failed m
      rw [if_neg lost]
      by_cases known : packet.code ≠ 1 ∧ packet.code ≠ 2 ∧ packet.code ≠ 4
      · rw [if_pos known]
        exact settled_failed m
      rw [if_neg known]
      cases packet.payload with
      | none => exact settled_failed m
      | hello _ => exact settled_failed m
      | osc data =>
          dsimp only
          split_ifs
          · exact settled_failed m
          · exact settled (not_or.mp lost).1
          · exact settled (not_or.mp lost).1

/-- The reply to HELLO is the first packet that is read. -/
theorem knows_hello (waits : Waits heard m) (before : m.connected = false) (taken : Bool)
    (connected : (m.onControlData identity taken packet).1.connected = true) :
    Knows (heard ++ [packet]) (m.onControlData identity taken packet).1 := by
  obtain ⟨rfl, busy, refreshing, fresh, data⟩ := waits
  have first (m' : Mixer) (kind : packet.kind = .reply .hello) (refreshing : m'.refreshing = false)
      (fresh : m'.fresh = false) (data : m'.windowData = false) : Knows ([] ++ [packet]) m' := by
    refine ⟨?_, fun _ => ?_, fun opened => ?_, fun _ shut => ?_, fun held => ?_⟩
    · rw [lastOf_append, if_neg (by simp [kind])]
      exact fun event last => by cases last
    · rw [lastOf_append, if_neg (by simp [kind])]
      exact fun event last => by cases last
    · exact absurd (refreshing.symm.trans opened) (by simp)
    · exact absurd (data.symm.trans shut) (by simp)
    · exact absurd (fresh.symm.trans held) (by simp)
  unfold Mixer.onControlData at connected ⊢
  cases kind : packet.kind with
  | reply request =>
      rw [kind] at connected
      dsimp only at connected ⊢
      split_ifs at connected ⊢ with wrong hello greeted other known refused
      · exact Knows.failed connected
      · exact Knows.failed connected
      · subst hello
        refine Knows.kept ?_ (kept_request taken _)
        exact first _ kind refreshing fresh data
      · exact Knows.failed connected
      · exact Knows.failed connected
      · exact absurd (Or.inl (by simp [before])) other
      · exact absurd (Or.inl (by simp [before])) other
  | event =>
      rw [kind] at connected
      dsimp only at connected ⊢
      rw [if_pos (Or.inl (by simp [before]))] at connected ⊢
      exact Knows.failed connected
  | window =>
      rw [kind] at connected
      dsimp only at connected ⊢
      rw [if_pos (Or.inl (by simp [before]))] at connected ⊢
      exact Knows.failed connected
  | observation =>
      rw [kind] at connected
      dsimp only at connected ⊢
      rw [if_pos (Or.inl (by simp [before]))] at connected ⊢
      exact Knows.failed connected

theorem told_packet (told : Told heard m) (timely : ¬ Untimely m packet)
    (sent : (outlineReader.read (heard ++ [packet])).isSome) (taken : Bool) :
    Told (heard ++ [packet]) (m.step identity taken (.packet packet)).1 := by
  show Told _ (if m.socket = true then _ else _ : Mixer × List Frame).1
  by_cases socket : m.socket = true
  swap
  · rw [if_neg socket]
    have lost : m.connected ≠ true := fun connected => socket (told.socket connected)
    exact ⟨fun connected => absurd connected lost, fun _ held => absurd held socket,
      fun connected => absurd connected lost⟩
  rw [if_pos socket]
  have settled : (m.onControlData identity taken packet).1.Settled :=
    settled_packet identity taken packet socket
  refine ⟨fun connected => ?_, fun lost held => ?_, fun connected => settled.symm.trans connected⟩
  · by_cases before : m.connected = true
    · exact knows_packet (told.knows before) timely sent taken before connected
    · have before : m.connected = false := by simpa using before
      exact knows_hello (told.waits before socket) before taken connected
  · rw [Mixer.Settled, lost, held] at settled
    cases settled

/-- What is no packet changes no flag but `fresh`, which may fall. -/
theorem kept_step {event : Mixer.Event} (own : ∀ packet, event ≠ .packet packet) (taken : Bool) :
    m.Kept (m.step identity taken event).1 := by
  cases event with
  | packet packet => exact absurd rfl (own packet)
  | lost => exact kept_disconnect m
  | refresh =>
      show m.Kept (if (!m.connected) = true then _ else _ : Mixer × List Frame).1
      split_ifs
      · exact kept_refl m
      · exact kept_request taken m
  | edit data =>
      show m.Kept (if (!m.connected || !m.writable) = true then _ else _ : Mixer × List Frame).1
      split_ifs
      · exact kept_refl m
      · cases data with
        | none => exact kept_refl m
        | some data => exact kept_send taken .write 0 data m

theorem packetsOf_append (events : List (Mixer.Event × Bool)) (event : Mixer.Event) (taken : Bool) :
    packetsOf (events ++ [(event, taken)]) = packetsOf events ++ packetsOf [(event, taken)] := by
  unfold packetsOf
  rw [List.filterMap_append]

theorem told_step (told : Told heard m) (event : Mixer.Event) (taken : Bool)
    (timely : ∀ packet, event = .packet packet → ¬ Untimely m packet)
    (sent : (outlineReader.read (heard ++ packetsOf [(event, taken)])).isSome) :
    Told (heard ++ packetsOf [(event, taken)]) (m.step identity taken event).1 := by
  cases event with
  | packet packet => exact told_packet told (timely packet rfl) sent taken
  | edit data =>
      have same : heard ++ packetsOf [(.edit data, taken)] = heard := List.append_nil heard
      rw [same]
      exact told.kept (kept_step (by simp) taken)
  | refresh =>
      have same : heard ++ packetsOf [(.refresh, taken)] = heard := List.append_nil heard
      rw [same]
      exact told.kept (kept_step (by simp) taken)
  | lost =>
      have same : heard ++ packetsOf [(.lost, taken)] = heard := List.append_nil heard
      rw [same]
      exact told.kept (kept_step (by simp) taken)

theorem told_start (taken : Bool) : Told [] (Mixer.start taken).1 := by
  have fresh : Told [] { socket := true } :=
    ⟨fun connected => by simp at connected, fun _ _ => ⟨rfl, rfl, rfl, rfl, rfl⟩, fun _ => rfl⟩
  exact fresh.kept (kept_send taken .hello controlGui (put32 7) { socket := true })

/-! ### What the mixer sends -/

theorem frames_send {taken : Bool} {kind : Request} {code : UInt32} {data : List UInt8} {frame : Frame}
    (member : frame ∈ (m.sendControl taken kind code data).2) :
    frame.kind = some kind ∧ frame.token = m.generation := by
  unfold Mixer.sendControl at member
  split_ifs at member
  · cases member
  · cases member
  · obtain rfl := List.mem_singleton.mp member
    exact ⟨rfl, rfl⟩
  · cases member

theorem frames_request {taken : Bool} {frame : Frame} (member : frame ∈ (m.requestRefresh taken).2) :
    frame.kind = some .refresh := by
  unfold Mixer.requestRefresh at member
  split_ifs at member
  · exact (frames_send member).1
  · cases member

/-- A packet is answered with nothing but a REFRESH. -/
theorem frames_packet {taken : Bool} {frame : Frame}
    (member : frame ∈ (m.onControlData identity taken packet).2) : frame.kind = some .refresh := by
  unfold Mixer.onControlData at member
  cases kind : packet.kind with
  | reply request =>
      rw [kind] at member
      dsimp only at member
      split_ifs at member
      · cases member
      · cases member
      · exact frames_request member
      · cases member
      · cases member
      · exact frames_request member
      · cases member
  | event =>
      rw [kind] at member
      dsimp only at member
      split_ifs at member
      · cases member
      · cases member
      · cases member
      · exact frames_request member
      · cases member
  | window =>
      rw [kind] at member
      dsimp only at member
      split_ifs at member <;> cases member
  | observation =>
      rw [kind] at member
      dsimp only at member
      split_ifs at member
      · cases member
      · cases member
      all_goals
        cases payload : packet.payload with
        | none =>
            rw [payload] at member
            cases member
        | hello reply =>
            rw [payload] at member
            cases member
        | osc data =>
            rw [payload] at member
            dsimp only at member
            split_ifs at member <;> cases member

/-- Only an edit of a writable view is sent as a WRITE, under the generation of the last lease event. -/
theorem frames_write {event : Mixer.Event} {taken : Bool} {frame : Frame}
    (member : frame ∈ (m.step identity taken event).2) (kind : frame.kind = some .write) :
    m.connected = true ∧ m.writable = true ∧ frame.token = m.generation := by
  cases event with
  | packet packet =>
      change frame ∈ (if m.socket = true then _ else _ : Mixer × List Frame).2 at member
      split_ifs at member
      · rw [frames_packet member] at kind
        cases kind
      · cases member
  | lost => cases member
  | refresh =>
      change frame ∈ (if (!m.connected) = true then _ else _ : Mixer × List Frame).2 at member
      split_ifs at member
      · cases member
      · rw [frames_request member] at kind
        cases kind
  | edit data =>
      change frame ∈ (if (!m.connected || !m.writable) = true then _ else _ : Mixer × List Frame).2 at member
      split_ifs at member with idle
      · cases member
      · cases data with
        | none => cases member
        | some data =>
            simp only [Bool.or_eq_true, Bool.not_eq_true', not_or, Bool.not_eq_false] at idle
            exact ⟨idle.1, idle.2, (frames_send member).2⟩

/-- Who has heard of a window has heard of the lease before. -/
theorem leased_of_window {outline : Outline} (read : outlineReader.read heard = some outline)
    (window : ∃ packet ∈ heard, packet.kind = .window) : ∃ event, lastOf .event heard = some event := by
  have leased : ∀ outline, outlineReader.read heard = some outline →
      (outline.leased = true → ∃ event, lastOf .event heard = some event)
        ∧ ((∃ packet ∈ heard, packet.kind = .window) → outline.leased = true) := by
    clear read window
    induction heard using List.reverseRecOn with
    | nil =>
        intro outline read
        obtain rfl := Option.some_inj.mp read
        exact ⟨fun leased => (by cases leased), fun ⟨packet, member, _⟩ => (by cases member)⟩
    | append_singleton heard packet ih =>
        intro outline read
        rw [outlineReader.read_append] at read
        obtain ⟨before, read', step⟩ := Option.bind_eq_some_iff.mp read
        obtain ⟨event, window⟩ := ih before read'
        have older (other : packet.kind ≠ .window) (among : ∃ p ∈ heard ++ [packet], p.kind = .window) :
            ∃ p ∈ heard, p.kind = .window := by
          obtain ⟨p, member, kind⟩ := among
          rcases List.mem_append.mp member with old | new
          · exact ⟨p, old, kind⟩
          · obtain rfl := List.mem_singleton.mp new
            exact absurd kind other
        rw [lastOf_append]
        obtain ⟨kind, request, code, sequence, payload⟩ := packet
        cases kind with
        | reply _ =>
            obtain rfl := Option.some_inj.mp step
            exact ⟨event, fun among => window (older (by simp) among)⟩
        | observation =>
            obtain rfl := Option.some_inj.mp step
            exact ⟨event, fun among => window (older (by simp) among)⟩
        | event =>
            obtain rfl := Option.some_inj.mp step
            exact ⟨fun _ => ⟨_, rfl⟩, fun _ => rfl⟩
        | window =>
            simp only [outlineReader] at step
            split_ifs at step with silent opens closed
            · obtain rfl := Option.some_inj.mp step
              have leased : before.leased = true := by simpa using silent
              exact ⟨fun _ => event leased, fun _ => leased⟩
            · obtain rfl := Option.some_inj.mp step
              have leased : before.leased = true := by simpa using silent
              exact ⟨fun _ => event leased, fun _ => leased⟩
  exact (leased outline read).1 ((leased outline read).2 window)

/-- A view that is writable is fresh. -/
theorem Knows.current (knows : Knows heard m) (writable : m.writable = true)
    (sent : (outlineReader.read heard).isSome) {frame : Frame} (token : frame.token = m.generation) :
    Current heard frame := by
  unfold Mixer.writable at writable
  simp only [Bool.and_eq_true, Bool.not_eq_true'] at writable
  obtain ⟨⟨⟨-, free⟩, shut⟩, fresh⟩ := writable
  have refreshed : Refreshed heard := knows.fresh fresh
  refine ⟨?_, knows.window shut, refreshed⟩
  obtain ⟨outline, read⟩ := Option.isSome_iff_exists.mp sent
  have window : ∃ packet ∈ heard, packet.kind = .window := by
    obtain ⟨before, opening, inside, closing, after, rfl, kind, -⟩ := refreshed
    exact ⟨opening, by simp, kind⟩
  obtain ⟨event, last⟩ := leased_of_window read window
  obtain ⟨busy, generation, code⟩ := knows.lease event last
  refine ⟨event, last, code.resolve_right fun held => ?_, token.trans generation⟩
  rw [busy.mpr held] at free
  cases free

/-- The mixer after its first callbacks. -/
def Mixer.started (identity : Identity) (first : Bool) (events : List (Mixer.Event × Bool)) : Mixer :=
  Mixer.after identity events (Mixer.start first).1

theorem started_append (first : Bool) (events : List (Mixer.Event × Bool)) (event : Mixer.Event)
    (taken : Bool) : Mixer.started identity first (events ++ [(event, taken)])
      = ((Mixer.started identity first events).step identity taken event).1 := by
  unfold Mixer.started Mixer.after
  rw [List.foldl_append]
  rfl

/-- Every callback that reads a packet reads it in time. -/
def Timely (identity : Identity) (first : Bool) (events : List (Mixer.Event × Bool)) : Prop :=
  ∀ before packet taken after, events = before ++ (.packet packet, taken) :: after →
    ¬ Untimely (Mixer.started identity first before) packet

theorem told_started {first : Bool} {events : List (Mixer.Event × Bool)}
    (timely : Timely identity first events) (sent : (outlineReader.read (packetsOf events)).isSome) :
    Told (packetsOf events) (Mixer.started identity first events) := by
  induction events using List.reverseRecOn with
  | nil => exact told_start first
  | append_singleton events last ih =>
      obtain ⟨event, taken⟩ := last
      rw [packetsOf_append] at sent ⊢
      rw [started_append]
      have earlier : Timely identity first events := fun before packet taken' after whole =>
        timely before packet taken' (after ++ [(event, taken)]) (by simp [whole])
      refine told_step (ih earlier (outlineReader.read_before sent)) event taken (fun packet same => ?_) sent
      subst same
      exact timely events packet taken [] rfl

end Mixer

/-- The GTK mixer edits only on a fresh view, whatever the server sends it, unless it reads the end of a
lease or the refusal of an edit while a window is open, or the end of a lease unannounced. -/
theorem editsFresh (outside : Outside) (actions : List Action) (connection : ℕ) (identity : Identity)
    (first : Bool) (events : List (Mixer.Event × Bool))
    (heard : packetsOf events <+: (run outside actions {}).wires connection)
    (timely : Timely identity first events) (before : List (Mixer.Event × Bool)) (event : Mixer.Event)
    (taken : Bool) (after : List (Mixer.Event × Bool)) (whole : events = before ++ (event, taken) :: after)
    (frame : Frame)
    (sends : frame ∈ ((Mixer.started identity first before).step identity taken event).2)
    (kind : frame.kind = some .write) :
    (Mixer.started identity first before).connected = true ∧ Current (packetsOf before) frame := by
  have sent : (outlineReader.read (packetsOf before)).isSome := by
    obtain ⟨rest, all⟩ := heard
    have read := outline_run outside actions connection
    rw [← all, whole] at read
    unfold packetsOf at read ⊢
    rw [List.filterMap_append, List.append_assoc] at read
    exact outlineReader.read_before read
  have earlier : Timely identity first before := fun before' packet taken' after' same =>
    timely before' packet taken' (after' ++ (event, taken) :: after) (by simp [whole, same])
  have told := told_started earlier sent
  obtain ⟨connected, writable, token⟩ := frames_write sends kind
  exact ⟨connected, (told.knows connected).current writable sent token⟩

/-! ### A GUI and a desk -/

/-- The GUI connects and asks for a window. -/
def mixerGreeting : List Action :=
  [.accept, .receive firstSlot (.packet (some ⟨some .hello, 1, controlGui, 0, [0, 0, 0, 7]⟩)),
    .receive firstSlot (.packet (some ⟨some .refresh, 2, 0, 1, []⟩))]

/-- A desk connects, takes the lease and gives it back. -/
def deskCycle : List Action :=
  [.accept, .receive secondSlot (.packet (some ⟨some .hello, 1, controlDesk, 0, [0, 0, 0, 1]⟩)),
    .receive secondSlot (.packet (some ⟨some .begin, 2, 0, 0, []⟩)),
    .receive secondSlot (.packet (some ⟨some .end, 3, 0, 2, []⟩))]

/-- The device reports, and the window ends. -/
def windowEnd : List Action :=
  [.report [47, 97, 0, 0] .device, .tick]

/-- Ten seconds pass before the given reading of the clock. -/
def tenSecondsBefore (reading : ℕ) : Outside :=
  { prompt with now := fun n => if n < reading then 0 else 10 }

theorem tenSecondsBefore_mono (reading : ℕ) : Monotone (tenSecondsBefore reading).now := by
  intro earlier later order
  show (if earlier < reading then (0 : ℚ) else 10) ≤ if later < reading then 0 else 10
  split_ifs <;> first | omega | norm_num

/-- A mixer of the unit behind `prompt`. -/
def thisUnit : Identity := ⟨1, [85], fun _ => true⟩

def greetedPackets : List Packet :=
  [⟨.reply .hello, 1, controlOk, 1, .hello prompt.hello⟩, ⟨.event, 0, controlOk, 1, .none⟩,
    ⟨.reply .refresh, 2, controlOk, 1, .none⟩, ⟨.window, 0, controlBusy, 1, .none⟩]

def leasePackets : List Packet :=
  [⟨.event, 0, controlBusy, 2, .none⟩, ⟨.event, 0, controlOk, 3, .none⟩]

def endPackets : List Packet :=
  [⟨.observation, 0, 1, 1, .osc [47, 97, 0, 0]⟩, ⟨.window, 0, controlOk, 1, .none⟩]

/-- The mixer reads these packets, and no edit is asked of it between them. -/
def readInTurn (packets : List Packet) : List (Mixer.Event × Bool) :=
  packets.map fun packet => (.packet packet, true)

theorem packetsOf_reading (packets : List Packet) : packetsOf (readInTurn packets) = packets := by
  unfold packetsOf readInTurn
  rw [List.filterMap_map]
  exact List.filterMap_some

/-- Whether every packet is read in time. -/
def timelyFrom (identity : Identity) : List (Mixer.Event × Bool) → Mixer → Bool
  | [], _ => true
  | (event, taken) :: rest, m =>
      (match event with
        | .packet packet => !decide (Untimely m packet)
        | _ => true) && timelyFrom identity rest (m.step identity taken event).1

theorem timely_check {identity : Identity} {events : List (Mixer.Event × Bool)} {m : Mixer}
    (checked : timelyFrom identity events m = true) {before : List (Mixer.Event × Bool)} {packet : Packet}
    {taken : Bool} {after : List (Mixer.Event × Bool)}
    (whole : events = before ++ (.packet packet, taken) :: after) :
    ¬ Untimely (Mixer.after identity before m) packet := by
  induction before generalizing events m with
  | nil =>
      subst whole
      have here := (Bool.and_eq_true_iff.mp checked).1
      show ¬ Untimely m packet
      simpa using here
  | cons first rest ih =>
      subst whole
      exact ih (Bool.and_eq_true_iff.mp checked).2 rfl

/-- Where no lease comes between, the first edit is on a fresh view. -/
theorem firstEdit_current :
    (Mixer.started thisUnit true (readInTurn (greetedPackets ++ endPackets))).connected = true
      ∧ Current (packetsOf (readInTurn (greetedPackets ++ endPackets)))
        ⟨some .write, 3, 0, 1, [47, 97, 0, 0]⟩ := by
  refine editsFresh (tenSecondsBefore 16) (mixerGreeting ++ windowEnd) 0 thisUnit true
    (readInTurn (greetedPackets ++ endPackets) ++ [(.edit (some [47, 97, 0, 0]), true)]) ?_
    (fun before packet taken after whole => timely_check ?_ whole)
    (readInTurn (greetedPackets ++ endPackets)) (.edit (some [47, 97, 0, 0])) true [] rfl _ ?_ rfl
  · decide +kernel
  · decide +kernel
  · decide +kernel

/-- Where a lease has ended, a fresh view is one of a window that opened after it. -/
theorem Refreshed.after_end {heard later : List Packet} {packet : Packet} (ends : Ends heard packet)
    (refreshed : Refreshed (heard ++ packet :: later)) :
    ∃ opening ∈ later, opening.kind = .window ∧ opening.code = controlBusy := by
  obtain ⟨before, opening, inside, closing, after, whole, kind, code, -, -, -, -, calm⟩ := refreshed
  have other : packet ≠ opening := by
    rintro rfl
    have event := ends.1
    rw [kind] at event
    cases event
  rcases List.append_eq_append_iff.mp whole with ⟨between, -, tail⟩ | ⟨between, early, tail⟩
  · cases between with
    | nil => exact absurd (List.cons.inj tail).1 other
    | cons first rest =>
        obtain ⟨-, rfl⟩ := List.cons.inj tail
        exact ⟨opening, by simp, kind, code⟩
  · cases between with
    | nil => exact absurd (List.cons.inj tail).1.symm other
    | cons first rest =>
        obtain ⟨rfl, inner⟩ := List.cons.inj tail
        refine absurd ?_ (calm rest packet later inner).1
        rwa [List.append_assoc, List.singleton_append, ← early]

/-- The requests the server reads from a slot. -/
def requestsOf (index : Slot) (actions : List Action) : List Frame :=
  actions.filterMap fun action =>
    match action with
    | .receive i (.packet frame) => if i = index then frame else none
    | _ => none

/-- The requests of the mixer. -/
def Mixer.requests (identity : Identity) : List (Mixer.Event × Bool) → Mixer → List Frame
  | [], _ => []
  | (event, taken) :: rest, m =>
      (m.step identity taken event).2 ++ requests identity rest (m.step identity taken event).1

/-- A lease ends while a window is open, and the end of that window makes the view look fresh: the GUI,
whose requests are those the server read so far, sends an edit, and no window has opened since. -/
theorem edit_onStaleView : ∃ outside actions connection identity events frame, Monotone outside.now
    ∧ packetsOf events <+: (run outside actions {}).wires connection
    ∧ requestsOf 0 actions
      <+: (Mixer.start true).2 ++ Mixer.requests identity events (Mixer.start true).1
    ∧ frame ∈ ((Mixer.started identity true events).step identity true
      (.edit (some [47, 97, 0, 0]))).2
    ∧ frame.kind = some .write ∧ ¬ Current (packetsOf events) frame := by
  refine ⟨tenSecondsBefore 42, mixerGreeting ++ deskCycle ++ windowEnd, 0, thisUnit,
    readInTurn (greetedPackets ++ leasePackets ++ endPackets), ⟨some .write, 4, 0, 3, [47, 97, 0, 0]⟩,
    tenSecondsBefore_mono 42, by decide +kernel, by decide +kernel, by decide +kernel, rfl,
    fun current => ?_⟩
  rw [packetsOf_reading] at current
  have ends : Ends (greetedPackets ++ [⟨.event, 0, controlBusy, 2, .none⟩])
      ⟨.event, 0, controlOk, 3, .none⟩ := ⟨rfl, rfl, ⟨.event, 0, controlBusy, 2, .none⟩, rfl, Or.inl rfl⟩
  obtain ⟨opening, member, kind, code⟩ := @Refreshed.after_end _ endPackets _ ends current.refreshed
  simp only [endPackets, List.mem_cons, List.not_mem_nil, or_false] at member
  rcases member with rfl | rfl
  · cases kind
  · exact absurd code (by decide)

end OscmixDesk.Backend
