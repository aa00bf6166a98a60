/-
**What a device with linked pairs holds.**

The registers of a device as the check of a plan assumes them (`retention_problem` in `reconcile.py`): a
setting written to one channel of a linked input or output pair is written to both, and linking a pair
copies the settings of its odd channel to the even one.
-/

import Mathlib.Logic.Function.Basic
import OscmixDesk.Model.Reconcile

namespace OscmixDesk

/-- What each register of a device holds. -/
abbrev Contents := Path → Args

/-- The other channel of a hardware pair. -/
def twinOf (channel : ℕ) : ℕ :=
  if channel % 2 = 1 then channel + 1 else channel - 1

theorem anchor_of_odd {channel : ℕ} (odd : channel % 2 = 1) : anchor channel = channel :=
  if_pos odd

theorem anchor_of_succ {left : ℕ} (odd : left % 2 = 1) : anchor (left + 1) = left := by
  unfold anchor
  rw [if_neg (by omega), Nat.add_sub_cancel]

/-- A link is addressed at the odd channel. -/
@[simp] theorem anchor_anchor (channel : ℕ) : anchor (anchor channel) = anchor channel := by
  by_cases odd : channel % 2 = 1
  · rw [anchor_of_odd odd, anchor_of_odd odd]
  · have even : anchor channel = channel - 1 := if_neg odd
    rw [even]
    unfold anchor
    split <;> omega

namespace Contents

variable (held : Contents)

/-- Whether the pair of a channel is linked. -/
def linked (family : Family) (channel : ℕ) : Bool :=
  held (.link family (anchor channel)) = [.int 1]

/-- Sets the link of a pair; switched on, it copies the settings of the odd channel. -/
def join (family : Family) (channel : ℕ) (args : Args) : Contents := fun path =>
  if path = .link family (anchor channel) then args
  else match path with
    | .channel own number setting =>
        if args = [.int 1] ∧ own = family ∧ anchor number = anchor channel ∧ setting ≠ .flat "stereo" then
          held (.channel family (anchor channel) setting)
        else held path
    | _ => held path

/-- Sets a setting of a channel, and of the channel it is linked with. -/
def assign (family : Family) (channel : ℕ) (setting : Setting) (args : Args) : Contents :=
  let own := Function.update held (.channel family channel setting) args
  if held.linked family channel then
    Function.update own (.channel family (twinOf channel) setting) args
  else own

/-- What a device holds behind a message. -/
def receive (message : Message) : Contents :=
  match message.path with
  | .channel .playback _ _ => Function.update held message.path message.args
  | .channel family channel setting =>
      if setting = .flat "stereo" then held.join family channel message.args
      else held.assign family channel setting message.args
  | _ => Function.update held message.path message.args

/-- What a device holds behind a run of messages. -/
def run (messages : List Message) : Contents :=
  messages.foldl receive held

end Contents

end OscmixDesk
