/-
**One operation on the backend connection** (`backend.py`, `streams.py`).

What an operation meets is not its own: when a stop is asked, what becomes of each WRITE, which
deliveries a window reads and when its time is up, which playback stream is running. A `World` holds
these answers by the number of the question, so that a statement about every world is one about every
placement of a failure. The `Session` records what the operation did: the writes it submitted with
their fate, and the windows it completed with what they reported.
-/

import OscmixDesk.Foundation.Effects
import OscmixDesk.Model.Observation

namespace OscmixDesk

open Effects

/-! ### Errors -/

/-- What a window is for, as its messages name it. -/
inductive Purpose
  | autoset
  | peakSafe
  | dspLimit
  deriving DecidableEq, Repr

/-- Where a stop was noticed. -/
inductive StopPoint
  | phase
  | link
  | before (purpose : Purpose)
  | during (purpose : Purpose)
  | after (purpose : Purpose)
  deriving DecidableEq, Repr

/-- Why the active USB playback stream is refused. -/
inductive PlaybackProblem
  | unreadable
  | changed
  | unmeasuredSetting
  | unmeasuredRate
  | failedTransfer
  | route (name : String) (channels : List ℕ)
  | settings (channels : List ℕ)
  deriving DecidableEq, Repr

/-- Why gains, or the links they depend on, refuse a plan. -/
inductive GainProblem
  | owned (paths : List Path)
  | unconfirmedLinks (paths : List Path)
  | retention (problem : RetentionProblem)
  deriving DecidableEq, Repr

/-- The cause of an `OSError`. -/
inductive Cause
  | noLease
  | connection
  | noWindow
  | refused (path : Path) (busy : Bool)
  | stopped (point : StopPoint)
  | contradictedLinks
  | unconfirmedLinks (paths : List Path)
  | retention (problem : RetentionProblem)
  | gain (problem : GainProblem)
  | dsp (problem : ConfigProblem)
  | playback (problem : PlaybackProblem)
  deriving DecidableEq, Repr

/-- What an operation raises. -/
inductive Raised
  | os (cause : Cause)
  /-- How far the writes had come: the paths that went out, and those that did not. -/
  | writeFailed (cause : Cause) (written unwritten : List Path)
  | fault (fault : Fault)
  deriving DecidableEq, Repr

/-! ### The world -/

/-- What becomes of one WRITE request. -/
inductive Exchange
  /-- The connection fails before the request is out. -/
  | unsent
  /-- The request is out, and the connection fails before its acknowledgement. -/
  | lost
  /-- A definite refusal: BUSY, or an invalid command. -/
  | refused (busy : Bool)
  | done
  deriving DecidableEq, Repr

/-- What a request for a state dump comes to. -/
inductive Grant
  | granted
  /-- No fresh window is available; the connection stays usable. -/
  | unavailable
  | disconnected
  deriving DecidableEq, Repr

/-- The playback stream that is running: its nominal rate, its channels and its USB setting. -/
structure PlaybackMode where
  rate : ℕ
  channels : ℕ
  altset : ℕ
  deriving DecidableEq, Repr

/-- An interface and its current stream; no mode means no active stream. -/
structure PlaybackState where
  card : Option ℕ
  serial : String
  mode : Option PlaybackMode
  deriving DecidableEq, Repr

/-- The answers an operation gets, by the number of its question. -/
structure World where
  stop : ℕ → Bool
  exchange : ℕ → Exchange
  grant : ℕ → Grant
  /-- The deliveries of a window until its time is up; `none` is a lost connection. -/
  deliveries : ℕ → List (Option (List Message))
  playback : ℕ → Option PlaybackState

/-- The world of an operation nothing stops. -/
def World.unstopped (world : World) : World :=
  { world with stop := fun _ => false }

/-! ### The session -/

/-- What a submitted WRITE came to. -/
inductive Fate
  | done
  | lost
  | refused
  deriving DecidableEq, Repr

/-- What an operation did. -/
inductive Event
  | write (message : Message) (fate : Fate)
  /-- A completed window, with its reports in order. -/
  | window (reports : List Message)
  deriving DecidableEq, Repr

/-- The state of an operation: how many questions it asked, whether it holds the lease on a usable
connection, and what it did. -/
structure Session where
  clock : ℕ := 0
  lease : Bool := true
  events : List Event := []
  deriving DecidableEq, Repr

abbrev Act := Prog Session Raised

/-- The number of the next question. -/
def tick : Act ℕ :=
  Prog.update fun session => (session.clock, { session with clock := session.clock + 1 })

/-- Whether a stop is asked. -/
def askStop (world : World) : Act Bool := do
  return world.stop (← tick)

/-- Adds what was done. -/
def record (event : Event) : Act Unit :=
  Prog.update fun session => ((), { session with events := session.events ++ [event] })

/-- The connection is closed, and the lease with it. -/
def close : Act Unit :=
  Prog.update fun session => ((), { session with lease := false })

def holdsLease : Act Bool :=
  Prog.update fun session => (session.lease, session)

/-- A planner's result. -/
def planned {α : Type} (result : Except Fault α) : Act α :=
  lift (result.mapError .fault)

/-! ### Writes -/

/-- Submits one WRITE and waits for its acknowledgement. -/
def exchange (world : World) (message : Message) : Act Exchange := do
  let answer := world.exchange (← tick)
  match answer with
  | .unsent => close
  | .lost => do
      record (.write message .lost)
      close
  | .refused _ => record (.write message .refused)
  | .done => record (.write message .done)
  return answer

/-- The rest of a burst, behind the paths that went out. -/
def sendFrom (world : World) (written : List Path) : List Message → Act Unit
  | [] => return ()
  | message :: rest => do
      match ← exchange world message with
      | .unsent => throw (.writeFailed .connection written (message.path :: rest.map (·.path)))
      | .lost => throw (.writeFailed .connection (written ++ [message.path]) (rest.map (·.path)))
      | .refused busy =>
          throw (.writeFailed (.refused message.path busy) written
            (message.path :: rest.map (·.path)))
      | .done => sendFrom world (written ++ [message.path]) rest

/-- Sends a burst, each write behind the acknowledgement of the one before it. -/
def send (world : World) (burst : List Message) : Act Unit := do
  if ← holdsLease then sendFrom world [] burst
  else throw (.writeFailed .noLease [] (burst.map (·.path)))

/-! ### Windows -/

/-- Opens a fresh window. -/
def requestDump (world : World) : Act Unit := do
  match world.grant (← tick) with
  | .granted => return ()
  | .unavailable => throw (.os .noWindow)
  | .disconnected => do
      close
      throw (.os .connection)

/-- Reads deliveries until the observation is done or the time is up. A stop ends the window, or
refuses for the cause it is given. -/
def watch (world : World) (done : Observation → Bool) (onStop : Option Cause)
    (observed : Observation) (seen : List Message) :
    List (Option (List Message)) → Act (Observation × List Message)
  | [] => return (observed, seen)
  | delivery :: rest => do
      if done observed then return (observed, seen)
      if ← askStop world then
        match onStop with
        | some cause => throw (.os cause)
        | none => return (observed, seen)
      match delivery with
      | none => do
          close
          throw (.os .connection)
      | some reports =>
          watch world done onStop (observed.absorbAll reports) (seen ++ reports) rest

/-- Refuses on a stop. -/
def refuseStop (world : World) (point : StopPoint) : Act Unit := do
  if ← askStop world then throw (.os (.stopped point))

/-- The links a window waits for. -/
def linkExpectations (links : List (Path × ℤ)) : List Expectation :=
  links.map fun link => { path := link.1, tags := "i", args := [.int link.2] }

/-- One fresh, completed window on some registers; missing or malformed stays unknown. -/
def readDependencies (world : World) (paths : List Path) (links : List (Path × ℤ))
    (purpose : Purpose) (settled : Option (Observation → Bool)) : Act Reports := do
  if paths.isEmpty then return noReports
  refuseStop world (.before purpose)
  let observed := Observation.opened (linkExpectations links) none paths []
  let done := settled.getD fun seen => seen.dependenciesComplete && seen.complete
  requestDump world
  let deliveries := world.deliveries (← tick)
  let (closed, seen) ←
    watch world done (some (.stopped (.during purpose))) observed [] deliveries
  refuseStop world (.after purpose)
  record (.window seen)
  return closed.latest

/-- The reports of the AutoSet dependencies. -/
def readAutoset (world : World) (config : Config) (links : List (Path × ℤ) := []) : Act Reports :=
  readDependencies world (dependencyPaths config) links .autoset none

/-- A window on registers that are not Boolean: done once each reported. -/
def readAll (world : World) (purpose : Purpose) (paths : List Path) : Act Reports :=
  readDependencies world paths [] purpose (some fun seen =>
    paths.all fun path => (seen.latest path).isSome)

/-! ### The playback stream -/

/-- How many channels each alternate setting carries. -/
def channelsOfAltset (altset : ℕ) : Option ℕ :=
  [(1, 20), (2, 16), (3, 14), (4, 8)].lookup altset

/-- Known playback limits of one stream. -/
def playbackProblem (config : Config) (mode : PlaybackMode) : Option PlaybackProblem :=
  if channelsOfAltset mode.altset ≠ some mode.channels then some .unmeasuredSetting
  else if !([44100, 48000, 88200, 96000, 176400, 192000].contains mode.rate) then
    some .unmeasuredRate
  else if (mode.rate = 176400 ∨ mode.rate = 192000) ∧ 14 < mode.channels then some .failedTransfer
  else
    let limit := if mode.rate = 88200 ∨ mode.rate = 96000 then min mode.channels 16
      else mode.channels
    let missing (route : Route) : List ℕ := route.playback.filter (limit < ·)
    match (config.routes.filter (!·.base)).find? fun route => !(missing route).isEmpty with
    | some route => some (.route route.name (missing route))
    | none =>
        let settings := (config.channels.filter fun setting =>
          setting.family = .playback && limit < setting.channel).map (·.channel)
        if settings.isEmpty then none else some (.settings settings.dedup)

/-- The model whose playback stream is guarded, by name and by USB identity. -/
def guardedDevice (config : Config) : Bool :=
  config.deviceName = defaultDeviceName && config.usbId = defaultUsbId
    && (config.routes.any (!·.playback.isEmpty) || config.channels.any (·.family = .playback))

/-- Rechecks the stream before a write phase; `before` is what the last check saw. -/
def guardCheck (world : World) (config : Config) (before : Option PlaybackState) :
    Act (Option PlaybackState) := do
  if !guardedDevice config then return before
  match world.playback (← tick) with
  | none => throw (.os (.playback .unreadable))
  | some state => do
      if before.any (· ≠ state) then throw (.os (.playback .changed))
      match state.mode.bind (playbackProblem config) with
      | some problem => throw (.os (.playback problem))
      | none => return some state

end OscmixDesk
