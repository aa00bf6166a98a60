/-
**The watcher** (`watch.py`): a device report that contradicts the desk asks for a reconcile.

A `Watcher` is the reader connection in use and what the `Watch` object has gathered, on this connection
and on earlier ones. One `round` of `_serve` reads the next delivery, keeps its reports unless a lease is
held, and judges what it has kept once the reports rest. A connection that ends takes nothing with it:
`run` connects again, and what was pending still is (`Watch.step`). Where a report was read is noted beside
it; nothing of the watcher looks at that.
-/

import OscmixDesk.Model.Connection
import OscmixDesk.Model.Observation

namespace OscmixDesk

/-! ### What contradicts a desk -/

/-- The entries a reconcile of the desk would write that a device reports back. -/
def watchedWrites (device : Device) (selected : Plan) : List Expectation :=
  (selected.writes.filter fun write =>
    write.reason ≠ .prerequisite && verifyClass (some device) write.path = some .verifiable).map
      fun write => ⟨write.path, write.tags, write.args⟩

/-- The watched registers whose last report contradicts the desk, by name. -/
def contradicted (device : Device) (selected : Plan) (reports : List Message) : List Path :=
  let observation := (Observation.opened (watchedWrites device selected) (some device)).absorbAll reports
  (observation.expected.keys.filter fun path =>
    path ∈ observation.mismatched ∧ path ∉ observation.invalid).mergeSort
      fun one other => one.render ≤ other.render

/-- `drift`: the pinned paths a reconcile of the desk would write whose last report contradicts it. -/
def drift (desk : Config) (reports : List Message) (known : Reports) : List Path :=
  match deviceForName desk.deviceName with
  | none => []
  | some device =>
      if reports = [] then []
      else
        match applicationPlan desk .reconcile [] [] (some known) with
        | .error _ => []
        | .ok selected => contradicted device selected reports

namespace Backend

open Effects

/-! ### Repeats -/

def knownLimit : ℕ := 20000
def slice : ℚ := 1 / 4
def watchSettle : ℚ := 2
def watchLongest : ℚ := 10
def watchRepeats : ℕ := 3
def watchRepeatWindow : ℚ := 60
def watchConnections : ℕ := 3

/-- How often the watcher re-asserted each register, and the ones it left to the device. -/
structure Repeats where
  times : Path → List ℚ := fun _ => []
  desk : Option Config := none
  left : List Path := []

namespace Repeats

def forgive (repeats : Repeats) : Repeats :=
  { repeats with times := fun _ => [], left := [] }

/-- One path: whether it is still worth a reconcile. -/
def admitOne (now : ℚ) (state : Repeats × List Path) (path : Path) : Repeats × List Path :=
  let (repeats, admitted) := state
  if path ∈ repeats.left then (repeats, admitted)
  else
    let times := (repeats.times path).filter fun before => now - before < watchRepeatWindow
    if watchRepeats ≤ times.length then ({ repeats with left := path :: repeats.left }, admitted)
    else ({ repeats with times := Function.update repeats.times path (times ++ [now]) }, admitted ++ [path])

/-- The paths still worth a reconcile; a new desk starts every count again. -/
def admitPaths (desk : Config) (paths : List Path) (now : ℚ) (repeats : Repeats) : Repeats × List Path :=
  let repeats := if repeats.desk ≠ some desk then { repeats.forgive with desk := some desk } else repeats
  paths.foldl (admitOne now) (repeats, [])

end Repeats

/-! ### The watcher -/

/-- A report that is not judged yet, and the place in the watcher's history where it was read. -/
structure Pending where
  message : Message
  place : ℕ
  deriving DecidableEq, Repr

def Pending.path (pending : Pending) : Path := pending.message.path

/-- What was judged, and the watcher's history by then. -/
structure Judgement where
  reports : List Pending
  history : List Occurrence
  deriving DecidableEq, Repr

structure Watcher where
  /-- The connection in use, or the last one. -/
  control : Connection := { sources := 1 }
  /-- What went over the connections before it. -/
  past : List Occurrence := []
  known : Keyed Message.path := Keyed.empty
  pending : Keyed Pending.path := Keyed.empty
  first : Option ℚ := none
  last : ℚ := 0
  repeats : Repeats := {}
  /-- The reconciles it asked for. -/
  requested : List (List Path) := []
  judged : List Judgement := []

/-- What a watcher meets besides its connections, by the number of its question: the process behind the
socket, whether backend and device are still the ones it checked, the desk in effect, and whether a reload
forgave. -/
structure Supervision where
  peer : ℕ → Option UInt32
  unchanged : ℕ → Bool
  desk : ℕ → Option Config
  forgiven : ℕ → Bool

/-- How watching goes on. -/
inductive Course
  | serving
  /-- The connection ended, or there is none. -/
  | lost
  /-- `_serve` returned. -/
  | returned
  /-- The run is not over. -/
  | running
  deriving DecidableEq, Repr

namespace Watcher

variable (around : Surroundings) (session : Supervision)

/-- What went over all its connections. -/
def history (w : Watcher) : List Occurrence :=
  w.past ++ w.control.history

/-- The answer to the next question. -/
def ask {α : Type} (answer : ℕ → α) (w : Watcher) : α × Watcher :=
  (answer w.control.clock, { w with control := { w.control with clock := w.control.clock + 1 } })

/-- `control.close`. -/
def shut (w : Watcher) : Watcher :=
  { w with control := w.control.shut }

/-- A level meter, which is no register. -/
def isMeter (path : Path) : Bool :=
  path.endsWith "meter" || path = .global "meter" none

/-- What is known of a register, up to a limit. -/
def learn (known : Keyed Message.path) (report : Message) : Keyed Message.path :=
  if (known.get? report.path).isSome || known.items.length < knownLimit then known.put report else known

/-- What is pending is dropped where a lease is held. -/
def dropped (owned : Bool) (w : Watcher) : Watcher :=
  if owned then { w with pending := Keyed.empty, first := none } else w

/-- `_absorb`. -/
def absorb (reports : List Message) (owned : Bool) (w : Watcher) : Watcher :=
  let w := w.dropped owned
  let registers := reports.filter fun report => !isMeter report.path
  let w := { w with
    known := registers.foldl learn w.known
    pending :=
      if owned then w.pending
      else registers.foldl (fun pending report => pending.put ⟨report, w.history.length - 1⟩) w.pending }
  if registers ≠ [] ∧ !owned then
    let (now, w) := w.ask around.clock
    { w with first := some (w.first.getD now), last := now }
  else w

/-- `_settled`. -/
def settled (w : Watcher) : Bool × Watcher :=
  let (now, w) := w.ask around.clock
  (now - w.last ≥ watchSettle || now - w.first.getD now ≥ watchLongest, w)

/-- The last report of each register. -/
def reportsOf (known : Keyed Message.path) : Reports := fun path =>
  (known.get? path).map fun message => ⟨message.tags, message.args⟩

/-- `_judge`. -/
def judge (w : Watcher) : Watcher × Course :=
  let pending := w.pending.items
  let w := { w with pending := Keyed.empty, first := none }
  let (desk, w) := w.ask session.desk
  match desk with
  | none => (w, .serving)
  | some desk =>
      if desk.enforce ≠ .watch then (w, .returned)
      else
        let (forgiven, w) := w.ask session.forgiven
        let w := if forgiven then { w with repeats := w.repeats.forgive } else w
        let (now, w) := w.ask around.clock
        let (repeats, paths) := w.repeats.admitPaths desk
          (drift desk (pending.map (·.message)) (reportsOf w.known)) now
        ({ w with
          repeats := repeats
          requested := if paths = [] then w.requested else w.requested ++ [paths]
          judged := w.judged ++ [⟨pending, w.history⟩] }, .serving)

/-- Reads the next delivery, unless a stop is asked. A wait that raises absorbs nothing, whatever it read. -/
def hear (w : Watcher) : Watcher × Course :=
  let (stop, w) := w.ask around.stop
  if stop then (w, .returned)
  else
    match Connection.messages around slice w.control with
    | (.error .running, _) => (w, .running)
    | (.error _, control) => ({ w with control := control }, .lost)
    | (.ok reports, control) => (absorb around reports control.leaseHeld { w with control := control }, .serving)

/-- Judges what is pending, once it rests. -/
def review (w : Watcher) : Watcher × Course :=
  if w.pending.items = [] then (w, .serving)
  else
    let (rests, w) := settled around w
    if rests then judge around session w else (w, .serving)

/-- One round of `_serve`. -/
def round (w : Watcher) : Watcher × Course :=
  match hear around w with
  | (w, .serving) => review around session w
  | (w, course) => (w, course)

/-- `connect_backend`: another connection, in place of the last one. -/
def connect (w : Watcher) : Watcher × Course :=
  let (peer, w) := w.ask session.peer
  let w := { w with past := w.history, control := { sources := 1, clock := w.control.clock } }
  match Connection.connect { around with peer := peer } true w.control with
  | (.error .running, control) => ({ w with control := control }, .running)
  | (.error _, control) => ({ w with control := control }, .lost)
  | (.ok _, control) =>
      let (unchanged, w) := { w with control := control }.ask session.unchanged
      if unchanged then (w, .serving) else (w.shut, .lost)

end Watcher

/-! ### Connection after connection -/

/-- Where `run` stands. -/
inductive Standing
  /-- Before the next attempt to connect. -/
  | connecting
  /-- On a connection it asked for at this time. -/
  | serving (started : ℚ)
  | ended
  /-- The run is not over. -/
  | running
  deriving DecidableEq, Repr

structure Watch where
  watcher : Watcher := {}
  failures : ℕ := 0
  stage : Standing := .connecting

namespace Watch

variable (around : Surroundings) (session : Supervision)

/-- An attempt to connect, unless a stop is asked or too many failed in a row. -/
def attempt (watch : Watch) : Watch :=
  if watchConnections ≤ watch.failures then { watch with stage := .ended }
  else
    let (stop, w) := watch.watcher.ask around.stop
    if stop then { watch with watcher := w, stage := .ended }
    else
      let (started, w) := w.ask around.clock
      match w.connect around session with
      | (w, .serving) => { watch with watcher := w, stage := .serving started }
      | (w, .running) => { watch with watcher := w, stage := .running }
      | (w, _) => { watch with watcher := w, failures := watch.failures + 1 }

/-- The connection ended: one that lasted starts the count of failures again. -/
def bereft (started : ℚ) (watch : Watch) : Watch :=
  let (stop, w) := watch.watcher.ask around.stop
  if stop then { watch with watcher := w.shut, stage := .ended }
  else
    let (now, w) := w.ask around.clock
    { watcher := w.shut
      failures := if watchLongest ≤ now - started then 1 else watch.failures + 1
      stage := .connecting }

/-- `run`, by one attempt to connect or one round on the connection. -/
def step (watch : Watch) : Watch :=
  match watch.stage with
  | .connecting => attempt around session watch
  | .serving started =>
      match watch.watcher.round around session with
      | (w, .serving) => { watch with watcher := w }
      | (w, .lost) => bereft around started { watch with watcher := w }
      | (w, .returned) => { watch with watcher := w.shut, stage := .ended }
      | (w, .running) => { watch with watcher := w, stage := .running }
  | .ended => watch
  | .running => watch

/-- The steps of `run`, from its start. -/
def after (steps : ℕ) : Watch :=
  (step around session)^[steps] {}

end Watch

end Backend

end OscmixDesk
