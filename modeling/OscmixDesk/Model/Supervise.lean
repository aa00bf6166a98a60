/-
**Serving reload requests** (`process.py`, `session.py`).

A SIGHUP and the watcher ask for a reconcile by flags, which the loop that waits for the backend serves. The
signal handler runs between two steps of the main thread, and the watcher's thread between any two steps; each
reads or writes one flag at a time. What was asked for and done is recorded beside the flags.
-/

import Mathlib.Data.Rat.Defs

namespace OscmixDesk.Supervise

/-- What a reconcile is run for. -/
inductive Reason
  | sighup
  | watch
  deriving DecidableEq, Repr

/-- Where the main thread is, with what it has popped. -/
inductive Point
  | starting
  | waiting
  | readingReload
  | readingStop
  | clearing
  | poppingSighup
  | poppingWatch (sighup : Bool)
  | choosing (sighup watched : Bool)
  | forgiving
  | calling (reason : Reason)
  | reconciling
  | stopping
  | ended
  deriving DecidableEq, Repr

/-- What is recorded: a SIGHUP, a request of the watcher from its first flag to its second, a flag that was
taken, a forgive of the watcher, and a reconcile. -/
inductive Deed
  | delivered
  | requested
  | completed
  | took (reason : Reason)
  | forgave
  | began (reason : Reason)
  deriving DecidableEq, Repr

/-- `reload_requested`, `stop_requested` and the loop; a flag that is missing is down. -/
structure Loop where
  point : Point := .starting
  reload : Bool := false
  sighup : Bool := false
  watch : Bool := false
  stop : Bool := false
  killDeadline : Option ℚ := none
  /-- Handlers of SIGHUP that have not set their second flag. -/
  handling : ℕ := 0
  /-- The watcher has not set the second flag of its request. -/
  requesting : Bool := false
  deeds : List Deed := []

inductive Action
  | hup
  | handled
  | stop
  | request
  | complete
  | main (now : ℚ)
  | exits
  | raises
  deriving DecidableEq

def childStopGrace : ℚ := 5

/-- `pop(…, False)`, recorded where the flag was up. -/
def taken (reason : Reason) (flag : Bool) : List Deed :=
  if flag then [.took reason] else []

/-- One step of `supervise` and `_serve_reload`; `watcher` is whether there is one. -/
def turn (watcher : Bool) (now : ℚ) (s : Loop) : Option Loop :=
  match s.point with
  | .starting => some { s with point := .waiting }
  | .waiting => some { s with point := .readingReload }
  | .readingReload => some { s with point := if s.reload then .readingStop else .stopping }
  | .readingStop => some { s with point := if s.stop then .stopping else .clearing }
  | .clearing => some { s with reload := false, point := .poppingSighup }
  | .poppingSighup =>
      some { s with sighup := false, point := .poppingWatch s.sighup, deeds := s.deeds ++ taken .sighup s.sighup }
  | .poppingWatch sighup =>
      some { s with watch := false, point := .choosing sighup s.watch, deeds := s.deeds ++ taken .watch s.watch }
  | .choosing sighup watched =>
      if !sighup && !watched then some { s with point := .stopping }
      else if !sighup then some { s with point := .calling .watch }
      else some { s with point := if watcher then .forgiving else .calling .sighup }
  | .forgiving => some { s with point := .calling .sighup, deeds := s.deeds ++ [.forgave] }
  | .calling reason => some { s with point := .reconciling, deeds := s.deeds ++ [.began reason] }
  | .reconciling => some { s with point := .stopping }
  | .stopping =>
      if s.stop then
        match s.killDeadline with
        | none => some { s with killDeadline := some (now + childStopGrace), point := .waiting }
        | some deadline => some { s with point := if deadline ≤ now then .ended else .waiting }
      else some { s with point := .waiting }
  | .ended => none

/-- The main thread is in the handler until it has set both flags; `exits` is the backend's exit at the wait and
`raises` a reconcile that raises. -/
def step (watcher : Bool) (s : Loop) : Action → Option Loop
  | .hup =>
      some { s with reload := true, handling := s.handling + 1, deeds := s.deeds ++ [.delivered] }
  | .handled =>
      if s.handling = 0 then none else some { s with sighup := true, handling := s.handling - 1 }
  | .stop => some { s with stop := true }
  | .request =>
      if watcher && !s.requesting then
        some { s with watch := true, requesting := true, deeds := s.deeds ++ [.requested] }
      else none
  | .complete =>
      if s.requesting then
        some { s with reload := true, requesting := false, deeds := s.deeds ++ [.completed] }
      else none
  | .main now => if s.handling = 0 then turn watcher now s else none
  | .exits => if s.handling = 0 ∧ s.point = .waiting then some { s with point := .ended } else none
  | .raises => if s.handling = 0 ∧ s.point = .reconciling then some { s with point := .ended } else none

/-- Before the loop, with no flag up. -/
def start : Loop := {}

end OscmixDesk.Supervise
