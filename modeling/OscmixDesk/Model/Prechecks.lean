/-
**What an apply reads and refuses before it writes** (`prechecks.py`, `limits.py`).

AutoSet ownership, links and DSP limits. Every check runs on reports of a completed window and
refuses before the first write it would make wrong.
-/

import OscmixDesk.Model.Session

namespace OscmixDesk

open Effects

/-! ### Gains and links -/

/-- The pair flags a plan switches on. -/
def switchedLinks (writes : List Write) : List Path :=
  (writes.filter fun write => write.path.endsWith "stereo" && write.args = [.int 1]).map (·.path)

/-- AutoSet-relevant input links needed by the selected matrix writes. -/
def inputLinkExpectations (config : Config) (selected : List Write) : List (Path × ℤ) :=
  let writes := selected.map (·.path)
  (config.routes.filter fun route =>
    route.kind = .input && (mixPaths route).any writes.contains).flatMap fun route =>
      (route.linkRequirements.filter fun requirement =>
        (dependencyPaths config).contains (.link requirement.family requirement.channel)).map
          fun requirement => (.link requirement.family requirement.channel,
            if requirement.linked then 1 else 0)

/-- No direct or indirect gain write may defeat AutoSet's ownership. -/
def gainProblem (config : Config) (selected : List Write) (latest : Reports) (intent : ApplyIntent)
    (retained confirmed : List Path) : Except Fault (Option GainProblem) := do
  let gains := retainedGains config latest (switchedLinks selected) intent.preservesRemember
  let blocked := (selected.map (·.path)).filter gains.contains
  if !blocked.isEmpty then return some (.owned blocked)
  let pending := (selected.filter fun write => write.path.endsWith "stereo").map (·.path)
  let wrong := (inputLinkExpectations config selected).filter fun link =>
    !pending.contains link.1 && flagValue (latest link.1) ≠ some link.2
  if !wrong.isEmpty then return some (.unconfirmedLinks (wrong.map Prod.fst))
  return (← retentionProblem config selected (retained ++ gains) confirmed (some latest)).map
    .retention

/-- The check in front of the writes of a phase. -/
def requireGainOwnership (config : Config) (selected : List Write) (latest : Reports)
    (intent : ApplyIntent) (retained confirmed : List Path) : Act Unit := do
  match ← planned (gainProblem config selected latest intent retained confirmed) with
  | some problem => throw (.os (.gain problem))
  | none => return ()

/-- The check in front of a whole plan: nothing is written. -/
def refuseGains (config : Config) (plan : Plan) (latest : Reports) (intent : ApplyIntent)
    (retained confirmed : List Path) : Act Unit := do
  match ← planned (gainProblem config plan.writes latest intent retained confirmed) with
  | some problem => throw (.writeFailed (.gain problem) [] (plan.writes.map (·.path)))
  | none => return ()

/-! ### DSP limits -/

/-- A switch of an output. -/
def outputSwitch (option : String) (channel : ℕ) : Path :=
  .channel .output channel (.flat option)

/-- What a plan writes to a switch, output by output, a later word winning. -/
def writtenSwitches (writes : List Write) (option : String) (channels : List ℕ) :
    Except NumericProblem (List (ℕ × ℤ)) := do
  let words ← (writes.filterMap fun write =>
    (channels.find? fun channel => write.path = outputSwitch option channel).map
      (·, write.args)).mapM fun (channel, args) => do
        return (channel, ← integer (args.headD (.str "")))
  return (words.map Prod.fst).dedup.filterMap fun channel =>
    (words.reverse.lookup channel).map (channel, ·)

/-- The writes of a plan that turn Room EQ or Crossfeed on. -/
def switchingOn (config : Config) (writes : List Write) : Except NumericProblem (List Path) := do
  match limitsOf config with
  | none => return []
  | some (_, channels) =>
      let both ← ["roomeq", "crossfeed"].mapM fun option => do
        let words ← writtenSwitches writes option channels
        return (words.filter (·.2 ≠ 0)).map fun word => outputSwitch option word.1
      return both.flatten

/-- Every output register the count reads. -/
def observationPaths (config : Config) : List Path :=
  match limitsOf config with
  | none => []
  | some (_, channels) =>
      (channels.flatMap fun channel =>
        [outputSwitch "roomeq" channel, outputSwitch "crossfeed" channel])
      ++ (channels.filter (· % 2 = 1)).map (Path.link .output)

/-- A reported switch; an output that did not report is counted as off. -/
def reportedSwitch (report : Option Report) : ℤ :=
  match report with
  | some ⟨_, value :: _⟩ => (integer value).toOption.getD 0
  | _ => 0

/-- The value of a switch after a plan. -/
def countedSwitch (words : List (ℕ × ℤ)) (option : String) (observed : Reports) (channel : ℕ) : ℤ :=
  (words.lookup channel).getD (reportedSwitch (observed (outputSwitch option channel)))

/-- The limit a plan would break, counting its writes over the observed outputs. -/
def planDspProblem (config : Config) (writes : List Write) (observed : Reports) :
    Except NumericProblem (Option ConfigProblem) := do
  if (← switchingOn config writes).isEmpty then return none
  match limitsOf config with
  | none => return none
  | some (limits, channels) =>
      let on (option : String) : Except NumericProblem (List ℕ) := do
        let words ← writtenSwitches writes option channels
        return channels.filter fun channel => countedSwitch words option observed channel ≠ 0
      let links ← writtenSwitches writes "stereo" channels
      let linked := channels.filter fun channel =>
        channel % 2 = 1 && countedSwitch links "stereo" observed channel = 1
      return dspProblem limits (← on "roomeq") (← on "crossfeed") linked

/-- A numeric result of the checks. -/
def counted {α : Type} (result : Except NumericProblem α) : Act α :=
  planned (orNumeric result)

/-- Room EQ and Crossfeed counted over every output before anything is switched on. -/
def dspLimitProblem (world : World) (config : Config) (writes : List Write) (latest : Reports) :
    Act (Option ConfigProblem) := do
  if (← counted (switchingOn config writes)).isEmpty then return none
  let missing := (observationPaths config).filter fun path => (latest path).isNone
  let read ← readAll world .dspLimit missing
  counted (planDspProblem config writes fun path => (read path).or (latest path))

/-- The plan if it keeps the DSP limits; refused on an explicit apply, else without the switches
it would turn on. -/
def withinDspLimits (world : World) (config : Config) (wanted : Plan) (latest : Reports)
    (intent : ApplyIntent) : Act Plan := do
  match ← dspLimitProblem world config wanted.writes latest with
  | none => return wanted
  | some problem => do
      if intent = .explicit then
        throw (.writeFailed (.dsp problem) [] (wanted.writes.map (·.path)))
      let held ← counted (switchingOn config wanted.writes)
      return { wanted with writes := wanted.writes.filter fun write => !held.contains write.path }

end OscmixDesk
