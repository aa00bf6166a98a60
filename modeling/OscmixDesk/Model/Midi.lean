/-
**A MIDI frame, written within its budget** (`midiremaining` and `writemidi` of `main.c` with the patches 0003
and 0012).

The descriptor does not block, so a frame goes out in parts, and the loop reads the clock on both sides of each
`write`. What the kernel answers is given turn by turn; a run keeps what it did in order (`Event`).
-/

import Mathlib.Algebra.Ring.Int.Defs
import Mathlib.Algebra.Ring.Nat
import OscmixDesk.Foundation.Effects

namespace OscmixDesk.Midi

open Effects

/-! ### The kernel -/

/-- A reading of the monotonic clock, which counts nanoseconds in 63 bits. -/
structure Timespec where
  sec : ℤ
  nsec : ℤ
  sec_nonneg : 0 ≤ sec
  nsec_nonneg : 0 ≤ nsec
  nsec_lt : nsec < 1000000000
  counted : sec * 1000000000 + nsec < 2 ^ 63

/-- `errno`; `EWOULDBLOCK` is `EAGAIN`. -/
inductive Errno
  | eintr
  | eagain
  | other (code : ℕ)
  deriving DecidableEq, Repr

/-- What `write` returns for so many bytes. -/
inductive Written (len : ℕ)
  | wrote (count : Fin (len + 1))
  | failed (errno : Errno)

/-- How many bytes were taken. -/
def Written.count {len : ℕ} : Written len → ℕ
  | .wrote count => count
  | .failed _ => 0

/-- What `poll` returns. -/
inductive Polled
  | ready (count : ℕ)
  | failed (errno : Errno)
  deriving DecidableEq, Repr

/-- What the kernel answers in one turn of the loop, and whether a stop was requested before it; `none` is a
`clock_gettime` that failed. -/
structure Turn where
  stopping : Bool
  before : Option Timespec
  write : (len : ℕ) → Written len
  after : Option Timespec
  poll : (remaining : ℤ) → Polled

/-! ### A run -/

/-- What a run did. -/
inductive Event
  | read (current : Timespec)
  | write (buf : List UInt8) (count : ℕ)
  | poll (remaining : ℤ)

/-- Why a run was `fatal`. -/
inductive Fatal
  /-- "clock_gettime MIDI write:" -/
  | clock
  /-- "MIDI monotonic clock moved backwards" -/
  | backwards
  /-- "MIDI bridge write timed out" -/
  | timedOut
  /-- "MIDI write cancelled" -/
  | cancelled
  /-- "poll MIDI bridge:" -/
  | poll (errno : Errno)
  /-- "write 7:" -/
  | write (errno : Errno)
  /-- "MIDI bridge write made no progress" -/
  | noProgress
  deriving DecidableEq, Repr

/-- A program that keeps what it did. -/
abbrev Run (α : Type) : Type := Prog (List Event) Fatal α

def did (event : Event) : Run Unit :=
  Prog.update fun events => ((), events ++ [event])

/-- `clock_gettime`. -/
def clockGettime : Option Timespec → Run Timespec
  | none => throw .clock
  | some current => do
      did (.read current)
      return current

/-- A 64-bit integer. -/
def int64 (n : ℤ) : ℤ :=
  n.bmod (2 ^ 64)

/-- The nanoseconds between two readings. -/
def elapsed (start current : Timespec) : ℤ :=
  int64 (int64 (int64 (int64 (current.sec - start.sec) * 1000000000) + current.nsec) - start.nsec)

/-- The milliseconds that are left, rounded up. -/
def midiremaining (start : Timespec) (reading : Option Timespec) : Run ℤ := do
  let current ← clockGettime reading
  if elapsed start current < 0 then throw .backwards
  else if 2000000000 ≤ elapsed start current then throw .timedOut
  else return (2000000000 - elapsed start current + 999999).tdiv 1000000

/-- The budget is read in coordinated mode only. -/
def budget (coordinated : Bool) (start : Timespec) (reading : Option Timespec) : Run ℤ :=
  if coordinated then midiremaining start reading else return 0

/-- One turn of the loop; returns what is left of the frame. -/
def writePart (coordinated : Bool) (start : Timespec) (turn : Turn) (buf : List UInt8) : Run (List UInt8) :=
  if turn.stopping then throw .cancelled
  else do
    let _ ← budget coordinated start turn.before
    let ret := turn.write buf.length
    did (.write buf ret.count)
    let remaining ← budget coordinated start turn.after
    match ret with
    | .failed errno =>
        if errno = .eintr then return buf
        else if coordinated && errno == .eagain then do
          did (.poll remaining)
          match turn.poll remaining with
          | .ready _ => return buf
          | .failed errno => if errno = .eintr then return buf else throw (.poll errno)
        else throw (.write errno)
    | .wrote count => if count.val = 0 then throw .noProgress else return buf.drop count

/-- The loop; returns what is left of the frame where the turns end before it does. -/
def writeLoop (coordinated : Bool) (start : Timespec) : List Turn → List UInt8 → Run (List UInt8)
  | [], buf => return buf
  | turn :: turns, buf =>
      if buf = [] then return []
      else do
        let rest ← writePart coordinated start turn buf
        writeLoop coordinated start turns rest

/-- Writes a frame; it has returned once nothing is left. -/
def writemidi (coordinated : Bool) (first : Option Timespec) (turns : List Turn) (buf : List UInt8) :
    Run (List UInt8) := do
  let start ← clockGettime first
  writeLoop coordinated start turns buf

end OscmixDesk.Midi
