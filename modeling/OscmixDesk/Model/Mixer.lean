/-
**The GTK mixer on the control server** (`gtk/mixer.c`, as patches 0003 and 0007 leave it).

The mixer asks for a refresh when it connects, when a lease ends and when one of its edits is refused, and
sends an edit only while six flags say that its view is fresh. The main loop runs one callback at a time:
one packet, one edit, one click on refresh. A callback that a packet sets off inside the widgets edits
nothing (`receiving`), so an edit is a turn of its own.
-/

import Mathlib.Data.List.Infix
import OscmixDesk.Model.Control

namespace OscmixDesk.Backend

/-- What the mixer was started with, and how it decodes an OSC packet. -/
structure Identity where
  /-- `backend_pid`, which the kernel confirms. -/
  pid : UInt32
  deviceToken : List UInt8
  /-- Whether `handle_packet` leaves no error. -/
  handles : List UInt8 → Bool

/-- `struct _Mixer`, as far as the protocol goes. -/
structure Mixer where
  socket : Bool := false
  sent : UInt32 := 0
  acknowledged : UInt32 := 0
  pending : Fin 32 → Option Request := fun _ => none
  generation : UInt64 := 0
  window : UInt64 := 0
  connected : Bool := false
  busy : Bool := false
  refreshing : Bool := false
  fresh : Bool := false
  windowData : Bool := false
  refreshQueued : Bool := false

namespace Mixer

def writable (m : Mixer) : Bool :=
  m.connected && !m.busy && !m.refreshing && m.fresh

def disconnectBackend (m : Mixer) : Mixer :=
  { m with connected := false, fresh := false, socket := false }

/-- The entry of `pending` of a request. -/
def pendingIndex (request : UInt32) : Fin 32 :=
  ⟨request.toNat % 32, Nat.mod_lt _ (by decide)⟩

/-- `send_control`; `taken` is whether the socket takes the packet. -/
def sendControl (taken : Bool) (kind : Request) (code : UInt32) (data : List UInt8) (m : Mixer) :
    Mixer × List Frame :=
  if !m.socket then (m, [])
  else if controlPayload < data.length ∨ m.sent = 0xffffffff ∨ 32 ≤ m.sent - m.acknowledged then
    (m.disconnectBackend, [])
  else
    let m := { m with
      sent := m.sent + 1
      pending := Function.update m.pending (pendingIndex (m.sent + 1)) (some kind) }
    if taken then (m, [⟨some kind, m.sent, code, m.generation, data⟩])
    else (m.disconnectBackend, [])

def requestRefresh (taken : Bool) (m : Mixer) : Mixer × List Frame :=
  if !m.refreshQueued && m.connected then
    sendControl taken .refresh 0 [] { m with refreshQueued := true }
  else (m, [])

/-- The checks on the reply to HELLO. -/
def identified (identity : Identity) (packet : Packet) : Bool :=
  match packet.payload with
  | .hello reply =>
      packet.code = controlOk && 25 ≤ packet.payload.length && reply.pid = identity.pid
        && reply.version = 1 && !reply.name.contains 0
        && (ByteArray.mk reply.name.toArray).validateUTF8 && decide (identity.deviceToken <:+: reply.name)
  | .none => false
  | .osc _ => false

/-- `on_control_data`, on a packet of the server. -/
def onControlData (identity : Identity) (taken : Bool) (packet : Packet) (m : Mixer) :
    Mixer × List Frame :=
  match packet.kind with
  | .reply kind =>
      if packet.request ≠ m.acknowledged + 1 ∨ m.sent < packet.request
          ∨ m.pending (pendingIndex packet.request) ≠ some kind then failed m
      else
        let m := { m with acknowledged := packet.request }
        if kind = .hello then
          if m.connected ∨ !identified identity packet then failed m
          else requestRefresh taken { m with connected := true, generation := packet.sequence }
        else if !m.connected ∨ packet.payload.length ≠ 0 ∨ (kind ≠ .refresh ∧ kind ≠ .write) then
          failed m
        else if packet.code ≠ controlOk ∧ packet.code ≠ controlBusy ∧ packet.code ≠ controlInvalid then
          failed m
        else if kind = .write ∧ packet.code ≠ controlOk then
          -- a rejected optimistic widget value is refreshed, never replayed
          requestRefresh taken { m with fresh := false }
        else (m, [])
  | .event =>
      if !m.connected ∨ packet.request ≠ 0 then failed m
      else if packet.payload.length ≠ 0 ∨ (packet.code ≠ controlOk ∧ packet.code ≠ controlBusy)
          ∨ packet.sequence < m.generation then failed m
      else if packet.code = controlBusy then
        ({ m with generation := packet.sequence, busy := true, fresh := false }, [])
      else if m.busy then
        requestRefresh taken { m with generation := packet.sequence, busy := false, fresh := false }
      else ({ m with generation := packet.sequence, busy := false }, [])
  | .window =>
      if !m.connected ∨ packet.request ≠ 0 then failed m
      else if packet.payload.length ≠ 0 ∨ (packet.code ≠ controlOk ∧ packet.code ≠ controlBusy) then
        failed m
      else if packet.code = controlBusy then
        ({ m with
          refreshQueued := false
          window := packet.sequence
          windowData := false
          refreshing := true
          fresh := false }, [])
      else if m.window = packet.sequence then
        ({ m with refreshing := false, fresh := m.windowData }, [])
      else (m, [])
  | .observation =>
      if !m.connected ∨ packet.request ≠ 0 then failed m
      else if packet.code ≠ 1 ∧ packet.code ≠ 2 ∧ packet.code ≠ 4 then failed m
      else
        match packet.payload with
        | .osc data =>
            if data.length = 0 ∨ data.length % 4 ≠ 0 ∨ !identity.handles data then failed m
            else if packet.code = 1 ∧ m.refreshing then ({ m with windowData := true }, [])
            else (m, [])
        | _ => failed m
where
  failed (m : Mixer) : Mixer × List Frame := (m.disconnectBackend, [])

/-- A callback of the main loop. -/
inductive Event
  | packet (packet : Packet)
  /-- `mixer_send` of an edit; `none` is one that cannot be encoded. -/
  | edit (data : Option (List UInt8))
  /-- `mixer_send` of `/refresh`. -/
  | refresh
  /-- The connection is lost, HELLO is not answered in time, or the window is closed. -/
  | lost
  deriving DecidableEq, Repr

/-- `mixer_start`, once the socket is connected. -/
def start (taken : Bool) : Mixer × List Frame :=
  sendControl taken .hello controlGui (put32 7) { socket := true }

def step (identity : Identity) (taken : Bool) (m : Mixer) : Event → Mixer × List Frame
  | .packet packet => if m.socket then onControlData identity taken packet m else (m, [])
  | .edit data =>
      if !m.connected || !m.writable then (m, [])
      else match data with
        | some data => sendControl taken .write 0 data m
        | none => (m, [])
  | .refresh => if !m.connected then (m, []) else requestRefresh taken m
  | .lost => (m.disconnectBackend, [])

/-- The mixer after more callbacks, each with whether the socket took what it sent. -/
def after (identity : Identity) (events : List (Event × Bool)) (m : Mixer) : Mixer :=
  events.foldl (fun m event => (step identity event.2 m event.1).1) m

end Mixer

end OscmixDesk.Backend
