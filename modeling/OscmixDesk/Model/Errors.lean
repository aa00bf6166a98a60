/-
**What a configuration is refused for** (`errors.py` and the messages of its callers).

One constructor for each refusal, with the values its message names. `Fault` separates a
`ConfigError`, which every caller handles, from a bare `ValueError`, which none does.
-/

import OscmixDesk.Model.Config

namespace OscmixDesk

/-- A `ConfigError`. -/
inductive ConfigProblem
  /- A value that does not parse. -/
  | channelSyntax (sectionName option raw : String)
  | notAChannel (sectionName option : String)
  | channelOutOfRange (sectionName option : String) (channel : ℤ)
  | notDb (sectionName option raw : String)
  | dbOutOfRange (sectionName option raw : String)
  | notBoolean (sectionName option raw : String)
  | notANumber (sectionName option raw : String)
  | numberRefused (sectionName option : String) (problem : NumericProblem)
  | notAChoice (sectionName option raw : String)
  | noDomain (sectionName option : String)
  | notAPort (option raw : String)
  | portOutOfRange (option : String) (port : ℤ)
  | deviceName
  | usbId (raw : String)
  | serial (raw : String)
  | enforceValue (raw : String)
  | baseName (raw : String)
  /- A section that does not hold what its kind allows. -/
  | unknownOptions (sectionName : String) (options : List String)
  | sessionOption (option : String)
  | pinValue (key raw : String)
  | pinKey (key : String)
  | pinFamily (key family : String)
  | pinOption (key family option : String)
  | ignored (sectionName : String)
  | sectionChannel (sectionName : String)
  | noPlaybackModel (sectionName : String)
  | lacksOption (sectionName option : String) (channel : ℤ)
  | unsettable (sectionName : String)
  | nestedChannel (sectionName sub : String) (channel : ℤ)
  /- A route that is none. -/
  | missingOutput (sectionName : String)
  | twoSources (sectionName : String)
  | noSource (sectionName : String)
  | widthsDiffer (sectionName : String)
  | unlinkedLevel (sectionName : String)
  | notABalance (sectionName raw : String)
  | balance (sectionName : String) (problem : PanProblem)
  /- Routes that do not fit the device or each other. -/
  | noSuchChannel (route : String) (family : Family) (channel : ℕ)
  | linkDisagreement (first second : String) (family : Family) (channel : ℕ)
  | routePan (problem : PanProblem)
  /- Mirrors. -/
  | mirrorSyntax (sectionName raw : String)
  | mirrorNotAPair (sectionName raw : String)
  | mirrorOntoEven (sectionName : String)
  | mirrorNoOutput (sectionName : String)
  | mirrorItself (sectionName : String)
  | mirroredTwice (output : ℕ)
  | mirrorOfMirror (target source : List ℕ)
  | mirroredPartly (route : String) (source : List ℕ)
  | mirrorHasRoute (route : String) (output : ℕ)
  /- The base's straight playback. -/
  | straightShapes (left : ℕ)
  | straightMirror (left : ℕ)
  | straightMerges (family : Family) (left : ℕ)
  /- Ownership of gains and of playback mute. -/
  | noAutoset (channel : ℕ)
  | autosetValue (channel : ℕ)
  | noGain (channel : ℕ)
  | gainPinConflict (channel : ℕ)
  | noPlaybackRegisters
  | playbackOption (channel : ℕ) (option : Setting)
  | playbackValue (channel : ℕ) (problem : NumericProblem)
  | muteConflict (channel : ℕ)
  | mutePartner (left : ℕ)
  | muteDisagreement (left : ℕ)
  | playbackRoute (route : String)
  | stereoDisagreement (family : Family) (channel : ℕ)
  | incompleteUnmute (left : ℕ) (missing : List (ℕ × ℕ))
  /- DSP limits. -/
  | roomeqLimit (outputs : List ℕ)
  | crossfeedLimit (pairs : List ℕ)
  deriving DecidableEq, Repr

/-- A `ValueError` of the planner. -/
inductive ValueProblem
  | numeric (problem : NumericProblem)
  | pan (problem : PanProblem)
  | balancedRoute (route : String) (family : Family)
  | lacksOption (channel : ℕ) (option : Setting)
  | unknownChoice
  | unmuteBypass (left : ℕ)
  deriving DecidableEq, Repr

/-- What an operation on a configuration raises. -/
inductive Fault
  | config (problem : ConfigProblem)
  | value (problem : ValueProblem)
  deriving DecidableEq, Repr

/-- A numeric problem where nothing turns it into a `ConfigError`. -/
def orNumeric {α : Type} (result : Except NumericProblem α) : Except Fault α :=
  result.mapError (.value ∘ .numeric)

/-- A check whose problem is a `ConfigError`. -/
def orConfig {α : Type} (result : Except ConfigProblem α) : Except Fault α :=
  result.mapError .config

end OscmixDesk
