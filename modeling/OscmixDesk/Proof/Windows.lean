/-
**Refresh windows alternate.**

The events of a connection alternate if each window is closed before a later one opens (`windowReader`).
The clock closes a window that is due before it opens one. A REFRESH reads the clock again: where a window
ends between the two readings, it opens the next one over it (`Overtakes`, `windows_overlap`). Nothing else
does, until the numbers come round (`windowsAlternate`).
-/

import OscmixDesk.Proof.Streams

namespace OscmixDesk.Backend

variable {outside : Outside}

/-! ### Window events in turn -/

/-- The last window event of a connection. -/
inductive Announced
  | nothing
  | opened (window : UInt64)
  | closed (window : UInt64)
  deriving DecidableEq, Repr

/-- A window opens under a later number, once the one before it is closed, and closes under its own; who
has heard of no window may hear the end of one. -/
def announce (code : UInt32) (window : UInt64) : Announced → Option Announced
  | .nothing => if code = controlBusy then some (.opened window) else some (.closed window)
  | .opened last => if code = controlOk ∧ window = last then some (.closed window) else none
  | .closed last => if code = controlBusy ∧ last < window then some (.opened window) else none

def windowReader : Reader Announced where
  start := .nothing
  step last packet :=
    match packet.kind with
    | .window => announce packet.code packet.sequence last
    | _ => some last
  silent last := last = .nothing

/-- The window events of a connection alternate. -/
def Alternates (packets : List Packet) : Prop :=
  (windowReader.read packets).isSome

instance (packets : List Packet) : Decidable (Alternates packets) :=
  inferInstanceAs (Decidable (_ = true))

/-- A client has heard of the open window or of nothing, and otherwise of the end of an earlier one. -/
def Abreast (refreshing : Bool) (window : UInt64) : Announced → Prop
  | .nothing => True
  | .opened last => refreshing = true ∧ last = window
  | .closed last => refreshing = false ∧ last ≤ window

/-- Only the windows matter. -/
theorem windowReader_plain {packet : Packet} (plain : packet.kind ≠ .window) (last : Announced) :
    windowReader.step last packet = some last := by
  obtain ⟨kind, request, code, sequence, payload⟩ := packet
  cases kind with
  | window => exact absurd rfl plain
  | reply _ => rfl
  | event => rfl
  | observation => rfl

theorem window_stays (refreshing : Bool) (window : UInt64) :
    windowReader.Stays (Abreast refreshing window) :=
  fun last _ plain => ⟨last, windowReader_plain plain last, id, id⟩

theorem window_fits : windowReader.Fits Abreast where
  start := rfl
  stays := window_stays
  closes window last abreast := by
    cases last with
    | nothing => exact ⟨.closed window, rfl, rfl, UInt64.le_refl window⟩
    | opened last =>
        obtain ⟨-, rfl⟩ := abreast
        exact ⟨.closed last, if_pos ⟨rfl, rfl⟩, rfl, UInt64.le_refl last⟩
    | closed last =>
        obtain ⟨shut, -⟩ := abreast
        cases shut

/-- The next window can be told from every window before it. -/
theorem lt_next_window {window : UInt64} (small : window.toNat + 1 < 2 ^ 64) : window < window + 1 := by
  rw [UInt64.lt_iff_toNat_lt, UInt64.toNat_add]
  show window.toNat < (window.toNat + 1) % 2 ^ 64
  rw [Nat.mod_eq_of_lt small]
  exact Nat.lt_succ_self _

/-- Where no window is open, the next one may be announced. -/
theorem window_opens {window : UInt64} (small : window.toNat + 1 < 2 ^ 64) :
    windowReader.Opens Abreast false window := by
  intro last abreast
  cases last with
  | nothing => exact ⟨.opened (window + 1), rfl, rfl, rfl⟩
  | opened last =>
      obtain ⟨shut, -⟩ := abreast
      cases shut
  | closed last =>
      obtain ⟨-, earlier⟩ := abreast
      refine ⟨.opened (window + 1), if_pos ⟨rfl, ?_⟩, rfl, rfl⟩
      exact UInt64.lt_of_le_of_lt earlier (lt_next_window small)

/-! ### Runs -/

/-- A REFRESH that the lease allows reads that the open window has ended, and nobody has been told. -/
def Overtakes (outside : Outside) (s : Server) (action : Action) : Prop :=
  ∃ index frame, Serving outside s action index frame ∧ frame.kind = some .refresh
    ∧ (atService outside index frame s).refreshing = true
    ∧ Granted outside index frame.token (atService outside index frame s)

/-- No window is overtaken, and the numbers do not come round. -/
structure Orderly (outside : Outside) (s : Server) (action : Action) : Prop where
  waits : ¬ Overtakes outside s action
  small : s.window.toNat + 2 < 2 ^ 64

/-- The window of the moment at which a request is served is that of the action, or the next. -/
theorem atService_window {s : Server} (attends : Attends windowReader Abreast s)
    (small : s.window.toNat + 2 < 2 ^ 64) (index : Slot) (frame : Frame) :
    (atService outside index frame s).window.toNat + 1 < 2 ^ 64 := by
  obtain ⟨later, heard, window⟩ :=
    @controlTick_heard outside _ windowReader Abreast s.hour s window_fits
      (window_opens (by show s.window.toNat + 1 < 2 ^ 64; omega)) attends.heard
  have same : (atService outside index frame s).window = later.window := by
    rw [← heard.hour]
    rfl
  rw [same]
  rcases window with window | window
  · rw [window]
    show s.window.toNat + 1 < 2 ^ 64
    omega
  · rw [window, UInt64.toNat_add]
    show (s.window.toNat + 1) % 2 ^ 64 + 1 < 2 ^ 64
    omega

theorem orderly_act {s : Server} {action : Action} (attends : Attends windowReader Abreast s)
    (orderly : Orderly outside s action) : Attends windowReader Abreast (act outside s action) := by
  have small := orderly.small
  refine act_attends window_fits (window_opens (by omega))
    (fun index frame t attends _ =>
      hello_attends window_fits (fun _ _ p packet event silent => ?_) index _ _ _ attends)
    (fun index frame serving refresh granted => ?_) attends
  · obtain rfl : p = .nothing := silent
    exact ⟨.nothing, windowReader_plain (by simp [event]) .nothing, trivial⟩
  · have shut : (atService outside index frame s).refreshing = false := by
      rw [Bool.eq_false_iff]
      exact fun opened => orderly.waits ⟨index, frame, serving, refresh, opened, granted⟩
    rw [shut]
    exact window_opens (atService_window attends small index frame)

theorem attends_start : Attends windowReader Abreast {} :=
  ⟨_, sound_start, rfl, fun _ _ known => by simp at known, fun _ => rfl⟩

/-- Refresh windows alternate for every client, in every run whose REFRESHes wait for the clock. -/
theorem windowsAlternate (outside : Outside) (actions : List Action)
    (orderly : ∀ before action after, actions = before ++ action :: after →
      Orderly outside (run outside before {}) action) (connection : ℕ) :
    Alternates ((run outside actions {}).wires connection) := by
  have attends : Attends windowReader Abreast (run outside actions {}) :=
    run_keeps attends_start fun before action after whole attends =>
      orderly_act attends (orderly before action after whole)
  obtain ⟨hour, heard⟩ := attends
  exact heard.gone connection

/-! ### Runs of one GUI -/

/-- A window opens; 9 s later the clock is read, and a second later again. -/
def passingClock (reading : ℕ) : ℚ :=
  if reading < 15 then 0 else if reading = 15 then 9 else 10

theorem passingClock_mono : Monotone passingClock := by
  intro earlier later order
  unfold passingClock
  split_ifs <;> first | omega | norm_num

/-- A GUI connects and asks for a window. -/
def firstRefresh : List Action :=
  greeting controlGui ++ [.receive firstSlot (.packet (some ⟨some .refresh, 2, 0, 1, []⟩))]

/-- Whether every REFRESH of a run finds no window open. -/
def shutFrom (outside : Outside) : List Action → Server → Bool
  | [], _ => true
  | action :: rest, s =>
      decide (s.window.toNat + 2 < 2 ^ 64)
        && (match action with
          | .receive index (.packet (some frame)) =>
              decide (frame.kind ≠ some .refresh) || !(atService outside index frame s).refreshing
          | _ => true)
        && shutFrom outside rest (act outside s action)

/-- Such a run overtakes no window. -/
theorem orderly_shut {actions : List Action} {s : Server} (shut : shutFrom outside actions s = true)
    {before : List Action} {action : Action} {after : List Action} (whole : actions = before ++ action :: after) :
    Orderly outside (run outside before s) action := by
  induction before generalizing actions s with
  | nil =>
      subst whole
      obtain ⟨small, asks⟩ := Bool.and_eq_true_iff.mp (Bool.and_eq_true_iff.mp shut).1
      refine ⟨?_, of_decide_eq_true small⟩
      rintro ⟨index, frame, serving, refresh, opened, -⟩
      obtain rfl := serving.action
      rcases Bool.or_eq_true_iff.mp asks with other | closed
      · exact of_decide_eq_true other refresh
      · rw [show (atService outside index frame s).refreshing = true from opened] at closed
        cases closed
  | cons first rest ih =>
      subst whole
      exact ih (Bool.and_eq_true_iff.mp shut).2 rfl

/-- Ten seconds pass in the first window, and ten in the second. -/
def secondWindow : Outside :=
  { prompt with now := fun reading => if reading < 15 then 0 else if reading < 26 then 10 else 20 }

/-- The GUI asks again once its first window has ended. -/
def twoRefreshes : List Action :=
  firstRefresh ++ [.tick, .receive firstSlot (.packet (some ⟨some .refresh, 3, 0, 1, []⟩)), .tick]

/-- Two windows, each of which is closed before the next one opens. -/
theorem twoRefreshes_alternate :
    Alternates ((run secondWindow twoRefreshes {}).wires 0)
      ∧ (((run secondWindow twoRefreshes {}).wires 0).filter fun packet => packet.kind = .window).map
          (fun packet => (packet.code, packet.sequence))
        = [(controlBusy, 1), (controlOk, 1), (controlBusy, 2), (controlOk, 2)] :=
  ⟨windowsAlternate secondWindow twoRefreshes (fun _ _ _ whole => orderly_shut (by decide +kernel) whole) 0,
    by decide +kernel⟩

/-- A REFRESH whose dispatch begins before the end of the window and goes on after it opens the next one,
and the client has not been told that the first was closed. -/
theorem windows_overlap : ∃ outside actions connection, Monotone outside.now
    ∧ ¬ Alternates ((run outside actions {}).wires connection) := by
  refine ⟨{ prompt with now := passingClock }, firstRefresh
    ++ [.receive 0 (.packet (some ⟨some .refresh, 3, 0, 1, []⟩))], 0, passingClock_mono, ?_⟩
  decide +kernel

end OscmixDesk.Backend
