/-
**The pairs of a device** (`docs/OSC-PROTOCOL.md`).

A stereo flag belongs to a hardware pair, an odd channel and the next: the flag of either channel
links both. While a pair is linked, a write addressed to one of its channels reaches the register of
the pair, and with it both channels.
-/

import OscmixDesk.Model.Entries

namespace OscmixDesk

/-- Which pairs are linked, by family and odd channel. -/
abbrev Links := Family → ℕ → Bool

namespace Links

/-- The channels that a write to an address affects. -/
def reached (links : Links) (family : Family) (channel : ℕ) : List ℕ :=
  if links family (pairLeft channel) then [pairLeft channel, pairLeft channel + 1] else [channel]

end Links

/-- The channels a write of a route affects, with their families. -/
def Message.touched (links : Links) (message : Message) : List (Family × ℕ) :=
  match message.path with
  | .mix out kind source =>
      (links.reached .output out).map (Family.output, ·)
        ++ (links.reached kind.family source).map (kind.family, ·)
  | .channel family channel (.flat "stereo") =>
      [(family, pairLeft channel), (family, pairLeft channel + 1)]
  | .channel family channel _ => (links.reached family channel).map (family, ·)
  | .global _ _ => []

end OscmixDesk
