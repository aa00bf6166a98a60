/-
**Ownership of playback mute and of the columns behind it** (`playback.py`).

No report establishes the backend's mute flags or the playback matrix. Both flags of a pair belong
to one declaration, and releasing a mute requires replacing both columns at every output.
-/

import OscmixDesk.Model.Errors

namespace OscmixDesk

def mutePath (channel : ℕ) : Path :=
  .channel .playback channel (.flat "mute")

/-- Whether a setting is the mute of a playback channel. -/
def ChannelSetting.isMute (setting : ChannelSetting) : Bool :=
  setting.family = .playback && setting.option = .flat "mute"

/-- The declared mute of each channel, in file order; a later word on a channel wins. -/
def declaredMutes (config : Config) : Except NumericProblem (List (ℕ × ℤ)) :=
  (config.channels.filter (·.isMute)).mapM fun setting => do
    return (setting.channel, ← integer setting.value)

/-- The word that stands for a channel. -/
def lookupLast (mutes : List (ℕ × ℤ)) (channel : ℕ) : Option ℤ :=
  mutes.reverse.lookup channel

/-- The pairs an unreadable retained flag protects: the adjacent partner as well. -/
def retainedPairs (retained : List Path) : List ℕ :=
  retained.filterMap fun path =>
    match path with
    | .channel .playback channel (.flat "mute") =>
        if 1 ≤ channel ∧ channel ≤ 20 then some (pairLeft channel) else none
    | _ => none

/-- Explicit matrix cells addressed by routes using either own source. A base's routes are not the
desk's own, so they do not count. -/
def routeCells (config : Config) (left : ℕ) : List (ℕ × ℕ) :=
  (config.routes.filter (!·.base)).flatMap fun route =>
    (route.playback.filter fun source => source = left || source = left + 1).flatMap fun source =>
      route.output.toList.map fun out => (out, source)

/-- One turn of the validation of the declared mutes. -/
def validatedMute (config : Config) (device : Option Device) (mutes : List (ℕ × ℤ))
    (setting : ChannelSetting) : Except ConfigProblem (List (ℕ × ℤ)) :=
  if setting.family ≠ .playback then .ok mutes
  else match device with
  | none => .error .noPlaybackRegisters
  | some known =>
      if known.usbId ≠ config.usbId || known.registers.isEmpty then .error .noPlaybackRegisters
      else match optionRegister (some known) .playback setting.option setting.channel with
      | none => .error (.playbackOption setting.channel setting.option)
      | some row =>
          match reportValue setting.value row, integer setting.value with
          | .error problem, _ => .error (.playbackValue setting.channel problem)
          | _, .error problem => .error (.playbackValue setting.channel problem)
          | .ok _, .ok value =>
              if setting.option ≠ .flat "mute" then
                .error (.playbackOption setting.channel setting.option)
              else match mutes.lookup setting.channel with
              | none => .ok (mutes ++ [(setting.channel, value)])
              | some stated =>
                  if stated = value then .ok mutes else .error (.muteConflict setting.channel)

/-- Validates each declaration before ownership across its pair is checked. -/
def validatedMutes (config : Config) (device : Option Device) :
    Except ConfigProblem (List (ℕ × ℤ)) :=
  config.channels.foldlM (validatedMute config device) []

/-- A declared playback route must address valid mono cells or adjacent pairs. -/
def validPlaybackRoute (device : Device) (route : Route) : Bool :=
  let side (channels : Channels) (family : Family) :=
    channels.toList.all (device.channelsFor family.name).contains
      && (!channels.isPair || channels.adjacent)
  side route.source .playback && side route.output .output
    && decide (levelMin ≤ route.level ∧ route.level ≤ levelMax)
    && !(route.output.isPair && !route.stereo && decide (0 < route.level))

/-- Own playback columns cannot depend on contradictory pair-link declarations. -/
def validateRouteLinks (routes : List Route) (device : Device) : Except ConfigProblem Unit :=
  match routes.find? fun route => route.kind = .playback && !validPlaybackRoute device route with
  | some route => .error (.playbackRoute route.name)
  | none =>
      match disagreement [] (allRequirements routes) with
      | some requirement => .error (.stereoDisagreement requirement.family requirement.channel)
      | none => .ok ()

/-- The cells of both columns of a pair, at every output of the device. -/
def columnCells (device : Device) (left : ℕ) : List (ℕ × ℕ) :=
  (device.channelsFor "output").flatMap fun out => [(out, left), (out, left + 1)]

/-- The columns of a released pair that no route of the desk sets. -/
def uncoveredCells (config : Config) (device : Device) (left : ℕ) : List (ℕ × ℕ) :=
  (columnCells device left).filter fun cell => !(routeCells config left).contains cell

/-- The pairs with a declared mute, in increasing order. -/
def mutedPairs (mutes : List (ℕ × ℤ)) : List ℕ :=
  (mutes.map (pairLeft ·.1)).dedup.insertionSort (· ≤ ·)

/-- Both partners of a pair carry one explicit mute. -/
def checkPartners (mutes : List (ℕ × ℤ)) (left : ℕ) : Except ConfigProblem Unit :=
  match mutes.lookup left, mutes.lookup (left + 1) with
  | some odd, some even => if odd = even then .ok () else .error (.muteDisagreement left)
  | _, _ => .error (.mutePartner left)

/-- A released pair explicitly owns both columns, including zero cells. -/
def checkUnmute (config : Config) (device : Device) (mutes : List (ℕ × ℤ)) (left : ℕ) :
    Except ConfigProblem Unit :=
  if mutes.lookup left = some 0 ∧ uncoveredCells config device left ≠ [] then
    .error (.incompleteUnmute left (uncoveredCells config device left))
  else .ok ()

/-- Refuses invalid ownership or an incomplete unmute before any I/O. -/
def validatePlaybackMute (config : Config) : Except ConfigProblem Unit := do
  let mutes ← validatedMutes config (deviceForName config.deviceName)
  if mutes.isEmpty then return ()
  match deviceForName config.deviceName with
  | none => throw .noPlaybackRegisters
  | some device =>
      (mutedPairs mutes).forM (checkPartners mutes)
      validateRouteLinks config.routes device
      (mutedPairs mutes).forM (checkUnmute config device mutes)

end OscmixDesk
