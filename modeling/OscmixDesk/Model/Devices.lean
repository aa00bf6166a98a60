/-
**The devices the program knows** (`devices.py`, `constants.py`).

Two interfaces: the Fireface UCX II with its whole register table, and the Fireface 802, which has
a channel map and no rows. The table's order is the source's: lookups take the first row that
matches. A decimal constant of the source is the binary64 nearest to it (`literal`).
-/

import OscmixDesk.Foundation.Text
import OscmixDesk.Model.Registers

namespace OscmixDesk

/-! ### Constants -/

/-- A decimal constant of the source: `digits / 10 ^ places`, as the float Python reads. -/
def literal (digits : ℤ) (places : ℕ) : ℚ :=
  round64 ((digits : ℚ) / (10 : ℚ) ^ places)

def levelMin : ℚ := -65

def levelMax : ℚ := 6

/-- `20.0 * math.log10(2.0)` as computed in binary64. -/
def unlinkedGainOffset : ℚ := 6778592881498239 / 1125899906842624

def channelMin : ℤ := 1

def channelMax : ℤ := 64

def defaultDeviceName : String := "Fireface UCX II"

def defaultUsbId : String := "2a39:3fd9"

/-- The channels `first..last`. -/
def seq (first last : ℕ) : List ℕ :=
  List.range' first (last + 1 - first)

/-! ### Row families -/

/-- A parametric-EQ sub-family: its switch, then frequency, gain and Q for each band, and the
filter type where the band offers one. -/
def bandRegisters (family : Family) (sub : String) (bands : List (ℕ × List String)) :
    List Register :=
  { template := .channel family (.flat sub), tags := "i", verify := .verifiable,
    channels := family.name, domain := some .bool } ::
  bands.flatMap fun (band, types) =>
    let name (field : String) := Setting.nested sub ("band" ++ toString band ++ field)
    [{ template := .channel family (name "freq"), tags := "i", verify := .verifiable,
       channels := family.name, domain := some .number, lo := some 20, hi := some 20000,
       unit := "Hz" },
     { template := .channel family (name "gain"), tags := "f", verify := .verifiable,
       channels := family.name, domain := some .number, lo := some (-20), hi := some 20,
       unit := "dB", scale := some (literal 1 1) },
     { template := .channel family (name "q"), tags := "f", verify := .verifiable,
       channels := family.name, domain := some .number, lo := some (literal 4 1),
       hi := some (literal 99 1), scale := some (literal 1 1) }] ++
    (if types.isEmpty then [] else
      [{ template := .channel family (name "type"), tags := "is", verify := .verifiable,
         channels := family.name, domain := some .enum, choices := types }])

def eqBands : List (ℕ × List String) :=
  [(1, ["Peak", "Low Shelf", "High Pass", "Low Pass"]), (2, []),
    (3, ["Peak", "High Shelf", "Low Pass", "High Pass"])]

def highShelf : List String := ["Peak", "High Shelf", "Low Pass", "High Pass"]

def roomeqBands : List (ℕ × List String) :=
  [(1, ["Peak", "Low Shelf", "High Pass", "Low Pass"]), (2, []), (3, []), (4, []), (5, []),
    (6, []), (7, []), (8, highShelf), (9, highShelf)]

/-- Room EQ: nine bands and a delay, on outputs only. -/
def roomeqRegisters : List Register :=
  bandRegisters .output "roomeq" roomeqBands ++
    [{ template := .channel .output (.nested "roomeq" "delay"), tags := "f",
       verify := .verifiable, channels := "output", domain := some .number, lo := some 0,
       hi := some (literal 425 3), unit := "OSC units", scale := some (literal 1 3) }]

/-- One sub-family's rows: its switch, then its options. A float option is in tenths. -/
def subRegisters (family : Family) (sub : String)
    (options : List (String × String × ℚ × ℚ × String)) : List Register :=
  { template := .channel family (.flat sub), tags := "i", verify := .verifiable,
    channels := family.name, domain := some .bool } ::
  options.map fun (name, tags, lo, hi, unit) =>
    { template := .channel family (.nested sub name), tags, verify := .verifiable,
      channels := family.name, domain := some .number, lo := some lo, hi := some hi, unit,
      scale := if tags = "f" then some (literal 1 1) else none }

def dynamicsOptions : List (String × String × ℚ × ℚ × String) :=
  [("gain", "f", -30, 30, "dB"), ("attack", "i", 0, 200, "ms"),
    ("release", "i", 100, 999, "ms"), ("compthres", "f", -60, 0, "dB"),
    ("compratio", "f", 1, 10, ":1"), ("expthres", "f", -99, 20, "dB"),
    ("expratio", "f", 1, 10, ":1")]

def lowcutOptions : List (String × String × ℚ × ℚ × String) :=
  [("freq", "i", 20, 500, "Hz"), ("slope", "i", 0, 3, "index")]

def autolevelOptions : List (String × String × ℚ × ℚ × String) :=
  [("maxgain", "f", 0, 18, "dB"), ("headroom", "f", 3, 12, "dB"),
    ("risetime", "f", literal 1 1, literal 99 1, "s")]

/-! ### Rows by shape -/

/-- A switch of a channel. -/
def switchRow (family : Family) (option channels : String) (policy : Policy := .remember) :
    Register :=
  { template := .channel family (.flat option), tags := "i", verify := .verifiable, channels,
    domain := some .bool, policy }

/-- A named choice of a channel. -/
def choiceRow (family : Family) (option channels : String) (choices : List String)
    (policy : Policy := .remember) : Register :=
  { template := .channel family (.flat option), tags := "is", verify := .verifiable, channels,
    domain := some .enum, choices, policy }

/-- A quantity of a channel, in fixed point. -/
def levelRow (family : Family) (option channels : String) (lo hi scale : ℚ)
    (policy : Policy := .remember) : Register :=
  { template := .channel family (.flat option), tags := "f", verify := .verifiable, channels,
    domain := some .number, lo := some lo, hi := some hi, unit := "dB", policy,
    scale := some scale }

/-- The input gain of one group of channels. -/
def gainRow (channels : String) (hi : ℚ) : Register :=
  { levelRow .input "gain" channels 0 hi (literal 1 1) .pin with truncates := true }

/-- A switch without a channel. -/
def globalSwitch (family : String) (option : Option String) (policy : Policy := .remember) :
    Register :=
  { template := .global family option, tags := "i", verify := .verifiable,
    channels := globalCapability, domain := some .bool, policy }

/-- A named choice without a channel. -/
def globalChoice (family option : String) (choices : List String)
    (policy : Policy := .remember) (values : List ℤ := []) : Register :=
  { template := .global family (some option), tags := "is", verify := .verifiable,
    channels := globalCapability, domain := some .enum, choices, values, policy }

/-- A quantity without a channel. -/
def globalNumber (family option tags : String) (lo hi : Option ℚ := none) (unit : String := "")
    (scale : Option ℚ := none) (policy : Policy := .remember) : Register :=
  { template := .global family (some option), tags, verify := .verifiable,
    channels := globalCapability, domain := some .number, lo, hi, unit, scale, policy }

/-- A register without a channel that only reports. -/
def globalReport (family option : String) : Register :=
  { template := .global family (some option), tags := "i", verify := .verifiable,
    channels := globalCapability }

/-! ### The tables -/

/-- The rows a route, a channel section or a playback section writes. -/
def ucx2ChannelRows : List Register :=
  [{ template := .channel .playback (.flat "stereo"), tags := "i", verify := .reestablished,
     channels := "playback", policy := .pin },
   { template := .channel .playback (.flat "mute"), tags := "i", verify := .reestablished,
     channels := "playback", domain := some .bool },
   { template := .channel .output (.flat "stereo"), tags := "i", verify := .verifiable,
     channels := "output", policy := .pin },
   levelRow .output "volume" "output" levelMin levelMax (literal 1 1),
   { template := .mix .playback, tags := "fi", verify := .reestablished, channels := "output",
     policy := .pin, mixLevel := true },
   { template := .mix .input, tags := "fi", verify := .verifiable, channels := "output",
     policy := .pin, mixLevel := true },
   { template := .channel .input (.flat "48v"), tags := "i", verify := .verifiable,
     channels := "48v", policy := .pin },
   switchRow .input "hi-z" "hi-z" .pin,
   gainRow "input-gain-mic" 75,
   gainRow "input-gain-inst" 24,
   gainRow "input-gain-line" 24,
   switchRow .input "autoset" "input-autoset",
   choiceRow .input "reflevel" "input-reflevel" ["+13dBu", "+19dBu"] .pin,
   switchRow .input "mute" "input",
   switchRow .input "phase" "input",
   switchRow .input "msproc" "input",
   { template := .channel .input (.flat "stereo"), tags := "i", verify := .verifiable,
     channels := "input", policy := .pin },
   switchRow .output "mute" "output",
   switchRow .output "phase" "output",
   choiceRow .output "reflevel" "output-reflevel" ["+4dBu", "+13dBu", "+19dBu"] .pin,
   { template := .channel .output (.flat "crossfeed"), tags := "i", verify := .verifiable,
     channels := "output", domain := some .number, lo := some 0, hi := some 5,
     unit := "index" },
   levelRow .input "fx" "input" (-65) 0 (literal 1 1),
   levelRow .output "fx" "output" (-65) 0 (literal 1 1),
   { template := .channel .output (.flat "pan"), tags := "i", verify := .verifiable,
     channels := "output", domain := some .number, lo := some (-100), hi := some 100 },
   levelRow .output "volumecal" "output" (-24) 3 (literal 1 2) .pin]

/-- The rows without a channel. -/
def ucx2GlobalRows : List Register :=
  [globalSwitch "echo" none,
   globalChoice "echo" "type" ["Stereo Echo", "Stereo Cross", "Pong Echo"],
   globalNumber "echo" "delay" "f" (some 0) (some 2) "s" (some (literal 1 3)),
   globalNumber "echo" "feedback" "i",
   globalChoice "echo" "highcut" ["Off", "16kHz", "12kHz", "8kHz", "4kHz", "2kHz"],
   globalNumber "echo" "volume" "f" (some levelMin) (some levelMax) "dB" (some (literal 1 1)),
   globalNumber "echo" "width" "f" (some 0) (some 1) "" (some (literal 1 2)),
   globalChoice "controlroom" "mainout" ["1/2", "3/4", "5/6", "7/8", "9/10", "11/12", "13/14",
     "15/16", "17/18", "19/20", "None"] .pin [0, 1, 2, 3, 4, 5, 6, 7, 8, 9, -1],
   globalNumber "controlroom" "dimreduction" "f" (some levelMin) (some 0) "dB"
     (some (literal 1 1)) .pin,
   globalNumber "controlroom" "recallvolume" "f" (some levelMin) (some 0) "dB"
     (some (literal 1 1)) .pin,
   globalSwitch "controlroom" (some "dim"),
   globalSwitch "controlroom" (some "mainmono"),
   globalSwitch "controlroom" (some "muteenable"),
   globalSwitch "reverb" none,
   globalChoice "reverb" "type" ["Small Room", "Medium Room", "Large Room", "Walls", "Shorty",
     "Attack", "Swagger", "Old School", "Echoistic", "8plus9", "Grand Wide", "Thicker",
     "Envelope", "Gated", "Space"],
   globalNumber "reverb" "predelay" "i",
   globalNumber "reverb" "lowcut" "i",
   globalNumber "reverb" "highcut" "i",
   globalNumber "reverb" "highdamp" "i",
   globalNumber "reverb" "attack" "i",
   globalNumber "reverb" "hold" "i",
   globalNumber "reverb" "release" "i",
   globalNumber "reverb" "smooth" "i" (some 0) (some 100),
   globalNumber "reverb" "roomscale" "f" none none "" (some (literal 1 2)),
   globalNumber "reverb" "time" "f" none none "" (some (literal 1 1)),
   globalNumber "reverb" "volume" "f" none none "" (some (literal 1 1)),
   globalNumber "reverb" "width" "f" (some 0) (some 1) "" (some (literal 1 2)),
   globalChoice "clock" "source" ["Internal", "Word Clock", "SPDIF", "AES", "Optical"] .pin,
   globalReport "clock" "samplerate",
   globalSwitch "clock" (some "wckout") .pin,
   globalSwitch "clock" (some "wcksingle") .pin,
   globalSwitch "clock" (some "wckterm") .pin,
   globalChoice "hardware" "opticalout" ["ADAT", "SPDIF"] .pin,
   globalChoice "hardware" "spdifout" ["Consumer", "Professional"] .pin,
   globalChoice "hardware" "ccmix" ["TotalMix App", "6ch + phones", "8ch", "20ch"] .pin,
   globalChoice "hardware" "standalonearc" ["Volume", "1s Op", "Normal"] .pin,
   globalSwitch "hardware" (some "standalonemidi") .pin,
   globalChoice "hardware" "lockkeys" ["Off", "Keys", "All"] .pin,
   globalSwitch "hardware" (some "remapkeys") .pin,
   globalReport "hardware" "ccmode",
   globalReport "hardware" "dspload",
   globalReport "hardware" "dspvers"]

/-- The nested sub-families. -/
def ucx2NestedRows : List Register :=
  bandRegisters .input "eq" eqBands ++ bandRegisters .output "eq" eqBands ++ roomeqRegisters
    ++ subRegisters .input "dynamics" dynamicsOptions
    ++ subRegisters .output "dynamics" dynamicsOptions
    ++ subRegisters .input "autolevel" autolevelOptions
    ++ subRegisters .output "autolevel" autolevelOptions
    ++ subRegisters .input "lowcut" lowcutOptions
    ++ subRegisters .output "lowcut" lowcutOptions

/-- Accepted by the device, never reported. -/
def ucx2WriteOnlyRows : List Register :=
  [{ template := .channel .input (.flat "name"), tags := "s", verify := .writeOnly,
     channels := "input" },
   { template := .channel .output (.flat "name"), tags := "s", verify := .writeOnly,
     channels := "output" },
   { template := .channel .output (.flat "loopback"), tags := "i", verify := .writeOnly,
     channels := "output", domain := some .bool }]

/-- The Fireface UCX II. -/
def ucx2 : Device where
  name := "Fireface UCX II"
  usbId := "2a39:3fd9"
  channels :=
    [("input", seq 1 20), ("output", seq 1 20), ("playback", seq 1 20), ("meter", seq 1 22),
      ("48v", [1, 2]), ("hi-z", [3, 4]), ("input-gain", seq 1 8), ("input-gain-mic", [1, 2]),
      ("input-gain-inst", [3, 4]), ("input-gain-line", seq 5 8), ("input-autoset", seq 1 4),
      ("input-reflevel", seq 3 8), ("output-reflevel", seq 1 8)]
  registers := ucx2ChannelRows ++ ucx2GlobalRows ++ ucx2NestedRows ++ ucx2WriteOnlyRows
  completeAfterColdPlug := [.channel .output (.flat "stereo")]

/-- The Fireface 802: a channel map and no rows. -/
def ff802 : Device where
  name := "Fireface 802"
  usbId := "2a39:3fc0"
  channels :=
    [("input", seq 1 30), ("output", seq 1 30), ("playback", seq 1 30), ("48v", seq 9 12),
      ("hi-z", seq 9 12), ("input-gain", seq 1 8), ("input-reflevel", seq 1 8),
      ("output-reflevel", seq 1 12)]
  registers := []

def devices : List Device := [ucx2, ff802]

/-- The device a configuration names, or `none` if it is not modelled. -/
def deviceForName (name : String) : Option Device :=
  devices.find? fun device =>
    decide (Text.lower device.name.toList = Text.lower (Text.strip name.toList))

end OscmixDesk
