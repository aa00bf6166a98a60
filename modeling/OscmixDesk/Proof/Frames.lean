/-
**A MIDI frame is written once, in order and within its budget.**

Whatever the kernel answers and whenever a stop is requested, the bytes taken so far and those left are the frame
(`Underway`): a part that was taken is dropped from what is left, and nothing else changes it. A reading ends the run
where it is not within two seconds of the first, so no write and no poll comes behind such a one, and what a poll
waits is what the reading in front of it leaves (`midiremaining_ends`). No answer of the clock makes the 64 bits
overflow (`elapsed_eq`). A run that leaves something has used up its turns (`writemidi_writes`).
-/

import Mathlib.Data.Rat.Floor
import Mathlib.Tactic.Linarith
import OscmixDesk.Foundation.Traces
import OscmixDesk.Model.Midi

namespace OscmixDesk.Midi

open Effects Traces

/-! ### Readings -/

/-- What the clock counts. -/
def Timespec.nanoseconds (t : Timespec) : ℤ :=
  t.sec * 1000000000 + t.nsec

/-- Within the budget since a reading. -/
def Within (start t : Timespec) : Prop :=
  0 ≤ t.nanoseconds - start.nanoseconds ∧ t.nanoseconds - start.nanoseconds < 2000000000

theorem within_self (start : Timespec) : Within start start := by
  unfold Within
  rw [Int.sub_self]
  exact ⟨le_refl 0, by decide⟩

/-- The milliseconds left at a reading, rounded up. -/
def left (start current : Timespec) : ℤ :=
  ⌈((2000000000 - (current.nanoseconds - start.nanoseconds) : ℤ) : ℚ) / 1000000⌉

theorem int64_eq {n : ℤ} (low : -2 ^ 63 ≤ n) (high : n < 2 ^ 63) : int64 n = n := by
  unfold int64
  refine Int.bmod_eq_of_le ?_ ?_
  · omega
  · omega

/-- The time between two readings, without an overflow. -/
theorem elapsed_eq (start current : Timespec) :
    elapsed start current = current.nanoseconds - start.nanoseconds := by
  obtain ⟨sec, nsec, a, b, c, d⟩ := start
  obtain ⟨sec', nsec', a', b', c', d'⟩ := current
  unfold elapsed Timespec.nanoseconds
  dsimp only at *
  rw [int64_eq (n := sec' - sec) (by omega) (by omega),
    int64_eq (n := (sec' - sec) * 1000000000) (by omega) (by omega),
    int64_eq (n := (sec' - sec) * 1000000000 + nsec') (by omega) (by omega),
    int64_eq (n := (sec' - sec) * 1000000000 + nsec' - nsec) (by omega) (by omega)]
  omega

/-! ### What a run did -/

/-- The bytes that were taken. -/
def taken (events : List Event) : List UInt8 :=
  events.flatMap fun event =>
    match event with
    | .write buf count => buf.take count
    | _ => []

/-- The clock's readings. -/
def readings (events : List Event) : List Timespec :=
  events.filterMap fun event =>
    match event with
    | .read current => some current
    | _ => none

def Event.isWrite : Event → Bool
  | .write _ _ => true
  | _ => false

/-- How often a write was tried. -/
def writes (events : List Event) : ℕ :=
  events.countP Event.isWrite

section Append

variable (events : List Event)

@[simp] theorem taken_read (current : Timespec) : taken (events ++ [.read current]) = taken events := by
  simp [taken]

@[simp] theorem taken_poll (remaining : ℤ) : taken (events ++ [.poll remaining]) = taken events := by
  simp [taken]

@[simp] theorem taken_write (buf : List UInt8) (count : ℕ) :
    taken (events ++ [.write buf count]) = taken events ++ buf.take count := by
  simp [taken]

@[simp] theorem readings_read (current : Timespec) :
    readings (events ++ [.read current]) = readings events ++ [current] := by
  simp [readings]

@[simp] theorem readings_poll (remaining : ℤ) : readings (events ++ [.poll remaining]) = readings events := by
  simp [readings]

@[simp] theorem readings_write (buf : List UInt8) (count : ℕ) :
    readings (events ++ [.write buf count]) = readings events := by
  simp [readings]

@[simp] theorem writes_read (current : Timespec) : writes (events ++ [.read current]) = writes events := by
  simp [writes, Event.isWrite]

@[simp] theorem writes_poll (remaining : ℤ) : writes (events ++ [.poll remaining]) = writes events := by
  simp [writes, Event.isWrite]

@[simp] theorem writes_write (buf : List UInt8) (count : ℕ) :
    writes (events ++ [.write buf count]) = writes events + 1 := by
  simp [writes, Event.isWrite]

end Append

/-- What may come behind the events of a run: a write of what is left, with every reading within the budget; a poll
of a positive time, and of no more than the last reading leaves. -/
def Allows (frame : List UInt8) (before : List Event) : Event → Prop
  | .read _ => True
  | .write buf _ => taken before ++ buf = frame
      ∧ ∃ start, (readings before).head? = some start ∧ ∀ t ∈ readings before, Within start t
  | .poll remaining => ∃ start current, (readings before).head? = some start
      ∧ (readings before).getLast? = some current ∧ 0 < remaining ∧ remaining ≤ left start current

/-- Everything was allowed behind what came before it. -/
def Orderly (frame : List UInt8) (events : List Event) : Prop :=
  Lawful (fun before event => before ++ [event]) (Allows frame) [] events

theorem foldl_snoc (before events : List Event) :
    events.foldl (fun before event => before ++ [event]) before = before ++ events := by
  induction events generalizing before with
  | nil => simp
  | cons event events ih =>
      rw [List.foldl_cons, ih, List.append_assoc]
      rfl

theorem Orderly.append {frame : List UInt8} {events : List Event} {event : Event} (orderly : Orderly frame events)
    (allowed : Allows frame events event) : Orderly frame (events ++ [event]) := by
  refine Lawful.append orderly ?_
  rw [foldl_snoc]
  exact allowed

theorem Orderly.allows {frame : List UInt8} {events before after : List Event} {event : Event}
    (orderly : Orderly frame events) (split : events = before ++ event :: after) : Allows frame before event := by
  have allowed := orderly before event after split
  rwa [foldl_snoc] at allowed

/-! ### The turns -/

/-- A run that goes on: the bytes taken and those left are the frame, and the budget is not used up. -/
structure Underway (start : Timespec) (frame buf : List UInt8) (events : List Event) : Prop where
  whole : taken events ++ buf = frame
  first : (readings events).head? = some start
  within : ∀ t ∈ readings events, Within start t
  orderly : Orderly frame events

/-- A run that is over. -/
structure Over (frame : List UInt8) (events : List Event) : Prop where
  part : taken events <+: frame
  orderly : Orderly frame events

section Turns

variable {start : Timespec} {frame buf : List UInt8} {events : List Event}

theorem Underway.over (underway : Underway start frame buf events) : Over frame events :=
  ⟨⟨buf, underway.whole⟩, underway.orderly⟩

@[simp] theorem ends_did {event : Event} {ok : Unit → List Event → Prop} {stopped : Fatal → List Event → Prop} :
    Ends (did event) events ok stopped ↔ ok () (events ++ [event]) := Iff.rfl

theorem Underway.head_read (underway : Underway start frame buf events) (current : Timespec) :
    (readings (events ++ [.read current])).head? = some start := by
  rw [readings_read, List.head?_append, underway.first]
  rfl

/-- A reading within the budget. -/
theorem Underway.read (underway : Underway start frame buf events) {current : Timespec}
    (inTime : Within start current) : Underway start frame buf (events ++ [.read current]) where
  whole := by
    rw [taken_read]
    exact underway.whole
  first := underway.head_read current
  within t member := by
    rw [readings_read, List.mem_append] at member
    rcases member with earlier | now
    · exact underway.within t earlier
    · rw [List.mem_singleton.mp now]
      exact inTime
  orderly := underway.orderly.append trivial

/-- A reading ends the run where the budget is used up or the clock went back; else it says what is left. -/
theorem midiremaining_ends (underway : Underway start frame buf events) (reading : Option Timespec) :
    Ends (midiremaining start reading) events
      (fun remaining events => Underway start frame buf events ∧ ∃ current,
        (readings events).getLast? = some current ∧ 0 < remaining ∧ remaining ≤ left start current)
      fun _ events => Over frame events := by
  unfold midiremaining
  cases reading with
  | none => exact underway.over
  | some current =>
      have read : Over frame (events ++ [.read current]) := by
        refine ⟨?_, underway.orderly.append trivial⟩
        rw [taken_read]
        exact underway.over.part
      rw [ends_bind]
      show Ends _ (events ++ [.read current]) _ _
      rw [ends_ite, ends_ite, elapsed_eq]
      refine ⟨fun _ => read, fun forward => ⟨fun _ => read, fun inTime => ?_⟩⟩
      have low := not_lt.mp forward
      have high := not_le.mp inTime
      refine ⟨underway.read ⟨low, high⟩, current, ?_, ?_⟩
      · rw [readings_read, List.getLast?_concat]
      · unfold left
        generalize current.nanoseconds - start.nanoseconds = since at low high
        rw [Int.tdiv_eq_ediv_of_nonneg (by omega)]
        refine ⟨by omega, ?_⟩
        rw [Int.le_ceil_iff, lt_div_iff₀ (by norm_num)]
        have bound : ((2000000000 - since + 999999) / 1000000 - 1) * 1000000 < 2000000000 - since := by omega
        exact_mod_cast bound

/-- A part that is taken is dropped from what is left. -/
theorem Underway.write (underway : Underway start frame buf events) (count : ℕ) :
    Underway start frame (buf.drop count) (events ++ [.write buf count]) where
  whole := by
    rw [taken_write, List.append_assoc, List.take_append_drop]
    exact underway.whole
  first := by
    rw [readings_write]
    exact underway.first
  within := by
    rw [readings_write]
    exact underway.within
  orderly := underway.orderly.append ⟨underway.whole, start, underway.first, underway.within⟩

theorem Underway.poll (underway : Underway start frame buf events) {current : Timespec} {remaining : ℤ}
    (last : (readings events).getLast? = some current) (positive : 0 < remaining)
    (most : remaining ≤ left start current) : Underway start frame buf (events ++ [.poll remaining]) where
  whole := by
    rw [taken_poll]
    exact underway.whole
  first := by
    rw [readings_poll]
    exact underway.first
  within := by
    rw [readings_poll]
    exact underway.within
  orderly := underway.orderly.append ⟨start, current, underway.first, last, positive, most⟩

/-- A turn goes on with what is left of the frame, or is the last. -/
theorem writePart_ends (underway : Underway start frame buf events) (turn : Turn) :
    Ends (writePart true start turn buf) events (fun rest events => Underway start frame rest events)
      fun _ events => Over frame events := by
  unfold writePart
  rw [ends_ite]
  refine ⟨fun _ => underway.over, fun _ => ?_⟩
  rw [ends_bind]
  refine (midiremaining_ends underway turn.before).imp ?_ fun _ _ ended => ended
  rintro - events ⟨underway, -⟩
  dsimp only
  rw [ends_bind, ends_did, ends_bind]
  refine (midiremaining_ends (underway.write _) turn.after).imp ?_ fun _ _ ended => ended
  rintro remaining events ⟨underway, current, last, positive, most⟩
  cases ret : turn.write buf.length with
  | wrote count =>
      rw [ret] at underway
      dsimp only
      rw [ends_ite]
      exact ⟨fun _ => underway.over, fun _ => underway⟩
  | failed errno =>
      have unchanged : Underway start frame buf events := by
        rw [ret] at underway
        exact underway
      dsimp only
      rw [ends_ite, ends_ite]
      refine ⟨fun _ => unchanged, fun _ => ⟨fun _ => ?_, fun _ => underway.over⟩⟩
      rw [ends_bind, ends_did]
      have polled := unchanged.poll last positive most
      cases turn.poll remaining with
      | ready count => exact polled
      | failed errno =>
          dsimp only
          rw [ends_ite]
          exact ⟨fun _ => polled, fun _ => polled.over⟩

/-- The loop, turn by turn. -/
theorem writeLoop_ends (underway : Underway start frame buf events) (turns : List Turn) :
    Ends (writeLoop true start turns buf) events (fun rest events => Underway start frame rest events)
      fun _ events => Over frame events := by
  induction turns generalizing buf events with
  | nil => exact underway
  | cons turn turns ih =>
      unfold writeLoop
      rw [ends_ite]
      refine ⟨fun done => done ▸ underway, fun _ => ?_⟩
      rw [ends_bind]
      exact (writePart_ends underway turn).imp (fun _ _ goesOn => ih goesOn) fun _ _ ended => ended

/-- A run from its first reading on. -/
theorem writemidi_ends (first : Option Timespec) (turns : List Turn) (frame : List UInt8) :
    Ends (writemidi true first turns frame) [] (fun rest events => ∃ start, Underway start frame rest events)
      fun _ events => Over frame events := by
  unfold writemidi
  cases first with
  | none => exact ⟨⟨frame, rfl⟩, lawful_nil⟩
  | some start =>
      rw [ends_bind]
      show Ends (writeLoop true start turns frame) [.read start] _ _
      have underway : Underway start frame frame [.read start] := by
        refine ⟨rfl, rfl, fun t member => ?_, Orderly.append lawful_nil trivial⟩
        rw [List.mem_singleton.mp member]
        exact within_self start
      exact (writeLoop_ends underway turns).imp (fun _ _ goesOn => ⟨start, goesOn⟩) fun _ _ ended => ended

end Turns

/-! ### What is left -/

section Left

variable {start : Timespec} {buf : List UInt8} {events : List Event}

theorem midiremaining_writes (reading : Option Timespec) :
    Ends (midiremaining start reading) events (fun _ stop => writes stop = writes events) fun _ _ => True := by
  unfold midiremaining
  cases reading with
  | none => exact trivial
  | some current =>
      rw [ends_bind]
      show Ends _ (events ++ [.read current]) _ _
      rw [ends_ite, ends_ite]
      exact ⟨fun _ => trivial, fun _ => ⟨fun _ => trivial, fun _ => writes_read events current⟩⟩

/-- A turn that goes on has tried one write. -/
theorem writePart_writes (turn : Turn) :
    Ends (writePart true start turn buf) events (fun _ stop => writes stop = writes events + 1)
      fun _ _ => True := by
  unfold writePart
  rw [ends_ite]
  refine ⟨fun _ => trivial, fun _ => ?_⟩
  rw [ends_bind]
  refine (midiremaining_writes turn.before).imp (fun _ read same => ?_) fun _ _ _ => trivial
  dsimp only
  rw [ends_bind, ends_did, ends_bind]
  refine (midiremaining_writes turn.after).imp (fun remaining wrote same' => ?_) fun _ _ _ => trivial
  rw [writes_write, same] at same'
  cases turn.write buf.length with
  | wrote count =>
      dsimp only
      rw [ends_ite]
      exact ⟨fun _ => trivial, fun _ => same'⟩
  | failed errno =>
      dsimp only
      rw [ends_ite, ends_ite]
      refine ⟨fun _ => same', fun _ => ⟨fun _ => ?_, fun _ => trivial⟩⟩
      rw [ends_bind, ends_did]
      have polled : writes (wrote ++ [.poll remaining]) = writes events + 1 := (writes_poll wrote remaining).trans same'
      cases turn.poll remaining with
      | ready count => exact polled
      | failed errno =>
          dsimp only
          rw [ends_ite]
          exact ⟨fun _ => polled, fun _ => trivial⟩

/-- Where something is left, every turn has tried a write. -/
theorem writeLoop_writes (turns : List Turn) :
    Ends (writeLoop true start turns buf) events
      (fun rest stop => rest ≠ [] → writes stop = writes events + turns.length) fun _ _ => True := by
  induction turns generalizing buf events with
  | nil => exact fun _ => rfl
  | cons turn turns ih =>
      unfold writeLoop
      rw [ends_ite]
      refine ⟨fun _ remains => absurd rfl remains, fun _ => ?_⟩
      rw [ends_bind]
      refine (writePart_writes turn).imp (fun rest middle once => ?_) fun _ _ _ => trivial
      refine ih.imp (fun rest stop spent remains => ?_) fun _ _ _ => trivial
      rw [spent remains, once, List.length_cons, Nat.add_assoc, Nat.add_comm 1]

/-- A run that leaves something has tried a write in every turn. -/
theorem writemidi_writes (first : Option Timespec) (turns : List Turn) (frame : List UInt8) :
    Ends (writemidi true first turns frame) [] (fun rest stop => rest ≠ [] → writes stop = turns.length)
      fun _ _ => True := by
  unfold writemidi
  cases first with
  | none => exact trivial
  | some start =>
      rw [ends_bind]
      show Ends (writeLoop true start turns frame) [.read start] _ _
      refine (writeLoop_writes turns).imp (fun rest stop spent remains => ?_) fun _ _ _ => trivial
      rw [spent remains]
      exact Nat.zero_add _

end Left

/-! ### Every run -/

/-- What was written, and when, however the run ended. -/
structure WrittenOnce (frame : List UInt8) (turns : ℕ) (result : Except Fatal (List UInt8))
    (events : List Event) : Prop where
  /-- A run that returned has written the frame, and took no reading two seconds after its first or later. -/
  returned : result = .ok [] → taken events = frame ∧ ∃ start, (readings events).head? = some start
    ∧ ∀ t ∈ readings events, t.nanoseconds - start.nanoseconds < 2000000000
  /-- Something is left only where every turn has tried a write. -/
  unfinished : ∀ rest, result = .ok rest → rest ≠ [] → writes events = turns
  /-- Any other has written the beginning of it. -/
  part : taken events <+: frame
  /-- No write comes behind a reading that is out of time. -/
  writes : ∀ before buf count after, events = before ++ .write buf count :: after →
    taken before ++ buf = frame ∧ ∃ start, (readings before).head? = some start ∧ ∀ t ∈ readings before,
      0 ≤ t.nanoseconds - start.nanoseconds ∧ t.nanoseconds - start.nanoseconds < 2000000000
  /-- A poll waits, and no longer than is left. -/
  polls : ∀ before remaining after, events = before ++ .poll remaining :: after →
    0 < remaining ∧ ∃ start current, (readings before).head? = some start
      ∧ (readings before).getLast? = some current
      ∧ remaining ≤ ⌈((2000000000 - (current.nanoseconds - start.nanoseconds) : ℤ) : ℚ) / 1000000⌉

theorem Over.writtenOnce {frame : List UInt8} {turns : ℕ} {result : Except Fatal (List UInt8)} {events : List Event}
    (ended : Over frame events) (returned : result = .ok [] → taken events = frame
      ∧ ∃ start, (readings events).head? = some start
        ∧ ∀ t ∈ readings events, t.nanoseconds - start.nanoseconds < 2000000000)
    (unfinished : ∀ rest, result = .ok rest → rest ≠ [] → writes events = turns) :
    WrittenOnce frame turns result events where
  returned := returned
  unfinished := unfinished
  part := ended.part
  writes _ _ _ _ split := ended.orderly.allows split
  polls _ _ _ split := by
    obtain ⟨start, current, first, last, positive, most⟩ := ended.orderly.allows split
    exact ⟨positive, start, current, first, last, most⟩

/-- **A MIDI frame is written once, in order and within its budget**, whatever the kernel answers; and the run
leaves something of it only where it is not over. -/
theorem frame_writtenOnce (frame : List UInt8) (first : Option Timespec) (turns : List Turn) :
    WrittenOnce frame turns.length (writemidi true first turns frame []).1
      (writemidi true first turns frame []).2 := by
  have ends := writemidi_ends first turns frame
  have counted := writemidi_writes first turns frame
  rcases run : writemidi true first turns frame [] with ⟨fatal | rest, events⟩
  · exact (ends.raised run).writtenOnce (fun same => by cases same) fun _ same => by cases same
  · obtain ⟨start, underway⟩ := ends.returned run
    refine underway.over.writtenOnce (fun same => ?_) fun rest' same remains => ?_
    · obtain rfl := Except.ok.inj same
      refine ⟨(List.append_nil _).symm.trans underway.whole, start, underway.first, fun t member => ?_⟩
      exact (underway.within t member).2
    · obtain rfl := Except.ok.inj same
      exact counted.returned run remains

end OscmixDesk.Midi
