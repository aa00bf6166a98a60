/-
**The poll loop of the backend** (`main` and `control_dispatch`, as patches 0003 and 0006 leave them).

In `Model.Server` a connection is told apart by a number of its own. The process knows it by its
descriptor, and the system gives a new connection the lowest one that is free. A round asks `poll` about
the descriptors of the moment; the device's reports and the clock come in between, and a new connection
is accepted before the slots are walked over with what `poll` saw.
-/

import OscmixDesk.Model.Server

namespace OscmixDesk.Backend

/-- What `poll` sees of a descriptor, and what `recvmsg` gives where it is readable. -/
structure Revents where
  hangUp : Bool := false
  writable : Bool := false
  readable : Option Received := none
  deriving DecidableEq, Repr

/-- Whether anything was seen. -/
def Revents.any (revents : Revents) : Bool :=
  revents.hangUp || revents.writable || revents.readable.isSome

/-- What one turn of the loop meets: what the MIDI side and the timer broadcast, whether a connection
waits, and what `poll` saw of each slot. -/
structure Round where
  midi : List (List UInt8 × Source) := []
  incoming : Bool := false
  revents : Slot → Revents := fun _ => {}
  timer : List (List UInt8 × Source) := []

/-- The server, and the descriptor each connection was given. -/
structure Host where
  server : Server := {}
  number : ℕ → ℕ := fun _ => 0

/-- The lowest number not in use. -/
def lowestFree (used : List ℕ) : ℕ :=
  ((List.range (used.length + 1)).find? fun number => number ∉ used).getD used.length

namespace Host

/-- `c->fd`; `none` is `-1`. -/
def descriptor (host : Host) (index : Slot) : Option ℕ :=
  (host.server.clients index).fd.map host.number

/-- The descriptors in use, `others` those that belong to no connection. -/
def used (others : List ℕ) (host : Host) : List ℕ :=
  others ++ (List.finRange 16).filterMap host.descriptor

/-- `struct pollfd` of a slot, with what `poll` sees of it. -/
def controlPollfds (revents : Slot → Revents) (host : Host) (index : Slot) : Polled :=
  ⟨host.descriptor index, (revents index).hangUp, (revents index).writable, (revents index).readable⟩

end Host

/-- What `poll` saw, without the descriptor. -/
def Polled.revents (polled : Polled) : Revents :=
  ⟨polled.hangUp, polled.writable, polled.readable⟩

/-- A walk over the slots: the host, and the connections acted on so far. -/
structure Walk where
  host : Host
  acted : List (Slot × ℕ) := []

section Loop

variable (outside : Outside) (others : List ℕ)

/-- What `control_dispatch` does with the events of a slot whose descriptor is still the one polled. -/
def serveRevents (index : Slot) (revents : Revents) (s : Server) : Server :=
  if revents.hangUp then disconnect outside index s
  else
    let s := if revents.writable then flush outside (disconnect outside) index s else s
    match revents.readable with
    | none => s
    | some received => receive outside index received s

/-- One slot of the walk: `c->fd < 0 || c->fd != fd->fd` passes it over. -/
def visit (polled : Slot → Polled) (walk : Walk) (index : Slot) : Walk :=
  match (walk.host.server.clients index).fd with
  | none => walk
  | some connection =>
      if (polled index).fd ≠ some (walk.host.number connection) then walk
      else
        { host := { walk.host with
            server := serveRevents outside index (polled index).revents walk.host.server }
          acted := if (polled index).revents.any then walk.acted ++ [(index, connection)]
            else walk.acted }

namespace Host

def controlTick (host : Host) : Host :=
  { host with server := Backend.controlTick outside host.server }

/-- `midiread`, and the timer. -/
def deliver (deliveries : List (List UInt8 × Source)) (host : Host) : Host :=
  { host with server := Backend.deliver outside deliveries host.server }

/-- `accept4` hands out the lowest free number; it is free again at once where no slot is. -/
def acceptClient (host : Host) : Host where
  server := Backend.acceptClient outside host.server
  number := Function.update host.number host.server.connections (lowestFree (host.used others))

/-- The host as the slots are walked over: past the reports, the clock and a new connection. -/
def entered (round : Round) (host : Host) : Host :=
  let host := controlTick outside (deliver outside round.midi host)
  if round.incoming then acceptClient outside others host else host

/-- The walk over some slots, after `control_pollfds` at a host. -/
def walk (round : Round) (host : Host) (slots : List Slot) : Walk :=
  slots.foldl (visit outside (host.controlPollfds round.revents)) ⟨entered outside others round host, []⟩

/-- A turn of the loop, from its own `control_tick` on. -/
def round (round : Round) (host : Host) : Host :=
  deliver outside round.timer
    (walk outside others round (controlTick outside host) (List.finRange 16)).host

/-- The host after some turns of the loop, as it asks `poll` for the next. -/
def polling (rounds : List Round) : Host :=
  controlTick outside (rounds.foldl (fun host round => Host.round outside others round host) {})

end Host

end Loop

end OscmixDesk.Backend
