/-
**The mixers on the control server.**

A `Console` is the server with any number of GTK mixers and of other clients, which may send anything. Each
connection carries requests one way and packets the other, both in order, and any party may move next: the
server serves, reads or ticks, a mixer reads its next packet, its user edits or asks for a refresh, and either
end of a connection may go down.
-/

import OscmixDesk.Model.Mixer

namespace OscmixDesk.Backend

/-- The server, the mixer behind a connection if it has one, how many packets each has read, and the requests
on their way. -/
structure Console where
  server : Server := {}
  mixer : ℕ → Option Mixer := fun _ => none
  taken : ℕ → ℕ := fun _ => 0
  mail : ℕ → List Frame := fun _ => []

namespace Console

/-- The server reads no mixer's request. -/
def Foreign (console : Console) : Action → Prop
  | .receive index (.packet _) =>
      ∀ connection, (console.server.clients index).fd = some connection → console.mixer connection = none
  | _ => True

/-- A mixer after a callback, and what it sent. -/
def moved (console : Console) (connection : ℕ) (result : Mixer × List Frame) : Console :=
  { console with
    mixer := Function.update console.mixer connection (some result.1)
    mail := Function.update console.mail connection (console.mail connection ++ result.2) }

/-- One party moves. -/
inductive Step (outside : Outside) (identity : ℕ → Identity) : Console → Console → Prop
  | serve (console : Console) (action : Action) : console.Foreign action →
      Step outside identity console { console with server := act outside console.server action }
  /-- A mixer starts, on a connection that the server takes. -/
  | start (console : Console) (taken : Bool) :
      (acceptClient outside console.server).connections = console.server.connections + 1 →
      Step outside identity console
        { console with
          server := acceptClient outside console.server
          mixer := Function.update console.mixer console.server.connections (some (Mixer.start taken).1)
          mail := Function.update console.mail console.server.connections (Mixer.start taken).2 }
  /-- The server reads the next request of a mixer. -/
  | request (console : Console) (index : Slot) (connection : ℕ) (m : Mixer) (frame : Frame)
      (rest : List Frame) : (console.server.clients index).fd = some connection →
      console.mixer connection = some m → console.mail connection = frame :: rest →
      Step outside identity console
        { console with
          server := receive outside index (.packet (some frame)) console.server
          mail := Function.update console.mail connection rest }
  /-- A mixer reads the next packet of its connection; `taken` is whether the socket takes what it sends. -/
  | read (console : Console) (connection : ℕ) (m : Mixer) (packet : Packet) (taken : Bool) :
      console.mixer connection = some m → m.socket = true →
      (console.server.wires connection)[console.taken connection]? = some packet →
      Step outside identity console
        { console.moved connection (Mixer.step (identity connection) taken m (.packet packet)) with
          taken := Function.update console.taken connection (console.taken connection + 1) }
  /-- Its user edits or asks for a refresh, or it goes. -/
  | callback (console : Console) (connection : ℕ) (m : Mixer) (event : Mixer.Event) (taken : Bool) :
      console.mixer connection = some m → (∀ packet, event ≠ .packet packet) →
      Step outside identity console
        (console.moved connection (Mixer.step (identity connection) taken m event))

/-- What the parties come to. -/
inductive Reachable (outside : Outside) (identity : ℕ → Identity) : Console → Prop
  | start : Reachable outside identity {}
  | step {console console' : Console} : Reachable outside identity console →
      Step outside identity console console' → Reachable outside identity console'

end Console

end OscmixDesk.Backend
