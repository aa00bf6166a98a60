/-
**An explicit switch between quieted outputs** (`peaksafe.py`).

With `peak-safe`, an explicit apply first pulls every output it changes down to the explicit zero,
then writes the plan, then gives each output its volume back: the one the desk declares, else the
one it reported before the switch.
-/

import OscmixDesk.Model.Prechecks

namespace OscmixDesk

open Effects

/-- Whether a write changes every output: an input or playback setting other than a link. -/
def changesAll (path : Path) : Bool :=
  match path with
  | .channel .input _ setting => setting.last ≠ "stereo"
  | .channel .playback _ setting => setting.last ≠ "stereo"
  | _ => false

/-- The output pair a write changes. -/
def changedPair (path : Path) : List ℕ :=
  match path with
  | .mix output _ _ => [pairLeft output, pairLeft output + 1]
  | .channel .output channel _ => [pairLeft channel, pairLeft channel + 1]
  | _ => []

/-- The outputs a plan that writes `paths` changes. -/
def changedOutputs (paths : List Path) (device : Device) : List ℕ :=
  let outputs := device.channelsFor "output"
  if paths.any changesAll then outputs
  else outputs.filter (paths.flatMap changedPair).contains

/-- A volume as it was reported, where the report is usable. -/
def reportedVolume (report : Option Report) : Option ℚ :=
  match report with
  | some ⟨_, value :: _⟩ =>
      if value = .float (.infinite true) then some levelMin else (float32 value).toOption
  | _ => none

/-- The volume each output reported, for the ones that reported a usable one. -/
def reportedVolumes (outputs : List ℕ) (observed : Reports) : List (ℕ × ℚ) :=
  outputs.filterMap fun output => (reportedVolume (observed (.volume output))).map (output, ·)

/-- A write of an output's volume. -/
def volumeMessage (output : ℕ) (args : Args) : Message where
  path := .volume output
  tags := "f"
  args := args

/-- The writes that pull every quieted output down to the explicit zero. -/
def quieting (volumes : List (ℕ × ℚ)) : List Message :=
  volumes.map fun volume => volumeMessage volume.1 [.real levelMin]

/-- Each quieted output's volume after the switch: declared, else what it was. -/
def givingBack (volumes : List (ℕ × ℚ)) (declared : Path → Option Args) : List Message :=
  volumes.map fun volume =>
    volumeMessage volume.1 ((declared (.volume volume.1)).getD [.real volume.2])

/-- The volumes a plan declares for the quieted outputs; a later write wins. -/
def declaredVolumes (wanted : Plan) (path : Path) : Option Args :=
  (wanted.writes.reverse.find? (·.path = path)).map (·.args)

/-- The plan without the volumes of the quieted outputs. -/
def withoutQuieted (wanted : Plan) (volumes : List (ℕ × ℚ)) : Plan :=
  { wanted with writes := wanted.writes.filter fun write =>
      !(volumes.map fun volume => Path.volume volume.1).contains write.path }

/-- Gives the volumes back, whatever becomes of it. -/
def giveBackAnyway (world : World) (volumes : List (ℕ × ℚ)) (declared : Path → Option Args) :
    Act Unit :=
  tryCatch (send world (givingBack volumes declared)) fun problem =>
    match problem with
    | .fault fault => throw (.fault fault)
    | _ => return ()

/-- Sends the plan with `sendPlan` between quieted outputs. -/
def sendQuieted (world : World) (wanted : Plan) (volumes : List (ℕ × ℚ))
    (sendPlan : Plan → Act Unit) : Act Unit := do
  let declared := declaredVolumes wanted
  send world (quieting volumes)
  tryCatch (sendPlan (withoutQuieted wanted volumes)) fun problem => do
    giveBackAnyway world volumes declared
    throw problem
  send world (givingBack volumes declared)

/-- The volumes an apply pulls down: with `peak-safe`, on an explicit apply, those of the outputs it
changes, as reported. -/
def pulledVolumes (world : World) (config : Config) (wanted : Plan) (intent : ApplyIntent)
    (latest : Reports) : Act (List (ℕ × ℚ)) := do
  match deviceForName config.deviceName with
  | none => return []
  | some device =>
      if !config.peakSafe || intent ≠ .explicit || wanted.writes.isEmpty then return []
      let outputs := changedOutputs (wanted.writes.map (·.path)) device
      let missing := (outputs.map Path.volume).filter fun path => (latest path).isNone
      let read ← readAll world .peakSafe missing
      return reportedVolumes outputs fun path => (read path).or (latest path)

/-- Sends the plan with `sendPlan`; between quieted outputs, where there are any. -/
def sendQuietly (world : World) (config : Config) (wanted : Plan) (intent : ApplyIntent)
    (latest : Reports) (sendPlan : Plan → Act Unit) : Act Unit := do
  let volumes ← pulledVolumes world config wanted intent latest
  if volumes.isEmpty then sendPlan wanted
  else sendQuieted world wanted volumes sendPlan

end OscmixDesk
