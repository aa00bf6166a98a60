/-
**What a register is, and the questions a device's table answers** (`registers.py`).

An OSC path is kept as the structured value it denotes: a setting of a channel
(`/output/3/volume`, `/input/3/eq/band1freq`, the link `/output/3/stereo`), a crosspoint of the
matrix (`/mix/5/playback/1`) or a setting without a channel (`/echo/delay`). `Path.render` gives
the text. A register's template is a path with its channel numbers left open, so whether a path
is an instance of a template is an equality and not a comparison of split strings.

A row names a *capability* of the device's channel map; two rows may share a template and differ
in the channels that have it (`/input/{ch}/gain` is three rows).
-/

import Mathlib.Data.List.Sort
import OscmixDesk.Foundation.Rounding

namespace OscmixDesk

/-! ### Paths -/

/-- The families whose registers are numbered by channel. -/
inductive Family
  | input
  | output
  | playback
  deriving DecidableEq, Repr

/-- The two kinds of source a crosspoint has. -/
inductive Kind
  | input
  | playback
  deriving DecidableEq, Repr

/-- The family a source's channels belong to. -/
def Kind.family : Kind → Family
  | .input => .input
  | .playback => .playback

def Family.name : Family → String
  | .input => "input"
  | .output => "output"
  | .playback => "playback"

/-- The name of a setting: an option of the channel itself, or one of a sub-family. -/
inductive Setting
  | flat (option : String)
  | nested (sub option : String)
  deriving DecidableEq, Repr

/-- The last path segment of a setting. -/
def Setting.last : Setting → String
  | .flat option => option
  | .nested _ option => option

def Setting.render : Setting → String
  | .flat option => option
  | .nested sub option => sub ++ "/" ++ option

/-- The OSC path of one register. -/
inductive Path
  | channel (family : Family) (number : ℕ) (setting : Setting)
  | mix (output : ℕ) (kind : Kind) (source : ℕ)
  | global (family : String) (option : Option String)
  deriving DecidableEq, Repr

namespace Path

/-- The path as the wire spells it. -/
def render : Path → String
  | .channel family number setting =>
      "/" ++ family.name ++ "/" ++ toString number ++ "/" ++ setting.render
  | .mix output kind source =>
      "/mix/" ++ toString output ++ "/" ++ kind.family.name ++ "/" ++ toString source
  | .global family none => "/" ++ family
  | .global family (some option) => "/" ++ family ++ "/" ++ option

/-- The stereo link of a pair, addressed at one channel. -/
abbrev link (family : Family) (number : ℕ) : Path :=
  .channel family number (.flat "stereo")

/-- The fader of an output: `/output/<n>/volume`. -/
abbrev volume (number : ℕ) : Path :=
  .channel .output number (.flat "volume")

/-- Whether the path ends in `/<name>`. -/
def endsWith (name : String) : Path → Bool
  | .channel _ _ setting => setting.last == name
  | .mix _ _ _ => false
  | .global _ option => option == some name

/-- Whether the path starts with `/<family>/`. -/
def inFamily (family : Family) : Path → Bool
  | .channel own _ _ => own == family
  | _ => false

/-- Whether the path starts with `/mix/`. -/
def isMix : Path → Bool
  | .mix _ _ _ => true
  | _ => false

end Path

/-- The odd channel of the hardware pair a channel belongs to. -/
def pairLeft (channel : ℕ) : ℕ :=
  channel - (channel - 1) % 2

/-! ### Rows -/

/-- How a register can be checked. -/
inductive VerifyClass
  | verifiable
  | writeOnly
  | reestablished
  deriving DecidableEq, Repr

/-- Who wins after the initial write. -/
inductive Policy
  | pin
  | remember
  deriving DecidableEq, Repr

/-- The value domains a setting can have. -/
inductive Domain
  | bool
  | enum
  | number
  deriving DecidableEq, Repr

/-- A path with its channel numbers left open. -/
inductive Template
  | channel (family : Family) (setting : Setting)
  | mix (kind : Kind)
  | global (family : String) (option : Option String)
  deriving DecidableEq, Repr

/-- The template a path is an instance of. -/
def Path.template : Path → Template
  | .channel family _ setting => .channel family setting
  | .mix _ kind _ => .mix kind
  | .global family option => .global family option

/-- The channel the first placeholder of the template stands for. -/
def Path.firstChannel : Path → Option ℕ
  | .channel _ number _ => some number
  | .mix output _ _ => some output
  | .global _ _ => none

/-- One register family: where it lives, what it holds and how it verifies. -/
structure Register where
  template : Template
  tags : String
  verify : VerifyClass
  /-- The capability of the device's channel map that has the register. -/
  channels : String
  /-- What a configuration may set it to; `none` for a register no configuration sets. -/
  domain : Option Domain := none
  choices : List String := []
  /-- The wire values of the choices where they are not their positions. -/
  values : List ℤ := []
  lo : Option ℚ := none
  hi : Option ℚ := none
  unit : String := ""
  policy : Policy := .remember
  scale : Option ℚ := none
  truncates : Bool := false
  mixLevel : Bool := false
  deriving DecidableEq, Repr

/-- An interface: its channel map and its register table. -/
structure Device where
  name : String
  usbId : String
  channels : List (String × List ℕ)
  registers : List Register
  /-- The families measured to arrive complete after a cold plug. -/
  completeAfterColdPlug : List Template := []
  deriving DecidableEq, Repr

namespace Device

/-- The channels that have a capability; none for one that was never recorded. -/
def channelsFor (device : Device) (capability : String) : List ℕ :=
  (device.channels.lookup capability).getD []

def has (device : Device) (capability : String) (channel : ℕ) : Bool :=
  (device.channelsFor capability).contains channel

end Device

/-! ### Lookups by path -/

/-- Who wins at a path, from the table; the device for a register the table does not know. -/
def registerPolicy (device : Option Device) (path : Path) : Policy :=
  ((device.bind fun known => known.registers.find? (·.template = path.template)).map
    (·.policy)).getD .remember

/-- How a path verifies, or `none` when nothing is known. -/
def verifyClass (device : Option Device) (path : Path) : Option VerifyClass :=
  (device.bind fun known => known.registers.find? (·.template = path.template)).map (·.verify)

/-- The row a concrete path is an instance of. A row whose capability the channel lacks is
passed over: several rows share a template. -/
def registerAt (device : Option Device) (path : Path) : Option Register :=
  device.bind fun known => known.registers.find? fun row =>
    decide (row.template = path.template) &&
      match path.firstChannel with
      | some channel => known.has row.channels channel
      | none => true

/-- Whether a cold plug reports the register for every channel. -/
def coldPlugComplete (device : Option Device) (path : Path) : Bool :=
  match device with
  | none => false
  | some known => known.completeAfterColdPlug.any (· = path.template)

/-! ### What a section may set -/

/-- What a section calls a family's own switch. -/
def enableOption : String := "enabled"

/-- The capability of a register without a channel. -/
def globalCapability : String := "global"

/-- Options a `[<family>]` section may set, in table order. -/
def settableGlobals (device : Option Device) (family : String) : List (String × Register) :=
  match device with
  | none => []
  | some known => known.registers.filterMap fun row =>
      if row.channels ≠ globalCapability || row.domain = none then none
      else match row.template with
        | .global own none => if own = family then some (enableOption, row) else none
        | .global own (some option) => if own = family then some (option, row) else none
        | _ => none

/-- Whether a `[<family>]` section names a family without channels. -/
def isGlobalFamily (device : Option Device) (family : String) : Bool :=
  match device with
  | none => false
  | some known => known.registers.any fun row =>
      row.channels = globalCapability &&
        match row.template with
        | .global own _ => own = family
        | _ => false

/-- The sub-families a `[<sub>:<family>:<n>]` section may name. -/
def isNestedFamily (device : Option Device) (family : Family) (sub : String) : Bool :=
  match device with
  | none => false
  | some known => known.registers.any fun row =>
      match row.template with
      | .channel own (.nested name _) => own = family && name = sub
      | _ => false

/-- Options a `[<family>:<n>]` section may set, one entry per row: the flat ones that declare a
domain and are no sub-family's switch. -/
def settableOptionRows (device : Option Device) (family : Family) : List (String × Register) :=
  match device with
  | none => []
  | some known => known.registers.filterMap fun row =>
      match row.template with
      | .channel own (.flat option) =>
          if row.domain ≠ none && own = family && !isNestedFamily device family option then
            some (option, row)
          else none
      | _ => none

/-- The row a `[family:channel]` section's option resolves to. -/
def optionRegister (device : Option Device) (family : Family) (setting : Setting)
    (channel : ℕ) : Option Register :=
  device.bind fun known => known.registers.find? fun row =>
    decide (row.template = .channel family setting) && row.domain.isSome &&
      known.has row.channels channel

/-- Every channel that can set the option, across its rows. -/
def optionChannels (device : Option Device) (family : Family) (setting : Setting) : List ℕ :=
  match device with
  | none => []
  | some known => known.registers.flatMap fun row =>
      if row.template = .channel family setting && row.domain.isSome then
        known.channelsFor row.channels
      else []

/-- Options a `[<sub>:<family>:<n>]` section may set, in table order; empty unless `sub` is a
sub-family. -/
def settableNested (device : Option Device) (sub : String) (family : Family) :
    List (String × Register) :=
  match device with
  | none => []
  | some known =>
      if isNestedFamily device family sub then
        known.registers.filterMap fun row =>
          if row.domain = none then none
          else match row.template with
            | .channel own (.flat option) =>
                if own = family && option = sub then some (enableOption, row) else none
            | .channel own (.nested name option) =>
                if own = family && name = sub then some (option, row) else none
            | _ => none
      else []

end OscmixDesk
