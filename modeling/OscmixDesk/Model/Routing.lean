/-
**Applying a plan** (`routing.py`).

A plan goes out phase by phase (`sendPhases`): the mutes, AutoSet off, the links, the barrier, the
mix, the channel state, AutoSet on, and last the releases. Before a phase the checks that later
reports could have made wrong run again. A burst that fails part of the way is reported for the whole
apply: the paths of the earlier phases and of the burst that went out, and everything else.
-/

import OscmixDesk.Model.PeakSafe

namespace OscmixDesk

open Effects

/-! ### Plans -/

namespace Plan

def links (plan : Plan) : List Write := plan.writes.filter (·.phase = .link)

def mix (plan : Plan) : List Write := plan.writes.filter (·.phase = .mix)

def channel (plan : Plan) : List Write :=
  plan.writes.filter fun write => write.phase ≠ .link && write.phase ≠ .mix

/-- The writes of one phase. -/
def burst (plan : Plan) (phase : Phase) : List Write := plan.writes.filter (·.phase = phase)

/-- The writes that switch an AutoSet off. -/
def autosetOff (plan : Plan) : List Write :=
  plan.channel.filter fun write => write.path.endsWith "autoset" && write.args = [.int 0]

end Plan

/-- The paths of writes. -/
def writePaths (writes : List Write) : List Path :=
  writes.map (·.path)

/-! ### The barrier -/

/-- What the wait for the link echo came to. -/
inductive LinkEcho
  | confirmed
  | silent
  | contradicted
  | cancelled
  deriving DecidableEq, Repr

/-- Waits until every register is reported at its value. -/
def awaitLinkEcho (world : World) (expected : List (Path × ℤ)) : Act LinkEcho := do
  if ← askStop world then return .cancelled
  if expected.isEmpty then return .confirmed
  let observed := Observation.opened (linkExpectations expected) none [] []
  let deliveries := world.deliveries (← tick)
  let (closed, _) ←
    watch world Observation.complete (some (.stopped .link)) observed [] deliveries
  if ← askStop world then return .cancelled
  if closed.mismatched.Nonempty then return .contradicted
  return if closed.complete then .confirmed else .silent

/-- Confirms, settles for silence, or refuses the writes that depend on the links. -/
def crossTheBarrier (world : World) (expected : List (Path × ℤ)) (requireConfirmation : List Path) :
    Act Unit := do
  match ← awaitLinkEcho world expected with
  | .cancelled => throw (.os (.stopped .link))
  | .contradicted => throw (.os .contradictedLinks)
  | .silent => if !requireConfirmation.isEmpty then
      throw (.os (.unconfirmedLinks requireConfirmation))
  | .confirmed => return ()

/-! ### One apply -/

/-- What stays fixed while a plan is sent. -/
structure Sending where
  config : Config
  wanted : Plan
  requireConfirmation : List Path
  intent : ApplyIntent
  retained : List Path
  confirmed : List Path

namespace Sending

/-- The links the barrier waits for: those of outputs, and those that must be confirmed. -/
def echoes (sending : Sending) : List (Path × ℤ) :=
  (sending.wanted.links.filter fun write => write.path.inFamily .output
    || sending.requireConfirmation.contains write.path).map fun write =>
      (write.path, match write.args with
        | .int value :: _ => value
        | _ => 0)

/-- Whether the plan writes the link of an input. -/
def linksInputs (sending : Sending) : Bool :=
  sending.wanted.links.any fun write => write.path.inFamily .input

/-- The input links the mix of the plan needs. -/
def mixExpectations (sending : Sending) : List (Path × ℤ) :=
  inputLinkExpectations sending.config sending.wanted.mix

def require (sending : Sending) (writes : List Write) (latest : Reports) : Act Unit :=
  requireGainOwnership sending.config writes latest sending.intent sending.retained
    sending.confirmed

/-- Explicit AutoSet-off is a prerequisite: the links come behind a fresh look. -/
def beforeLinks (world : World) (sending : Sending) (remaining : List Write) (latest : Reports) :
    Act Reports := do
  if sending.wanted.autosetOff.isEmpty then return latest
  let latest ← readAutoset world sending.config
  sending.require remaining latest
  return latest

/-- The mix comes behind the barrier and the links of its inputs. -/
def beforeMix (world : World) (sending : Sending) (burst : List Write) (latest : Reports) :
    Act Reports := do
  if burst.isEmpty then return latest
  if !sending.echoes.isEmpty || !sending.requireConfirmation.isEmpty then
    crossTheBarrier world sending.echoes sending.requireConfirmation
  let needed := inputLinkExpectations sending.config burst
  let latest ← if !needed.isEmpty && !sending.wanted.links.isEmpty then
      readAutoset world sending.config needed
    else pure latest
  sending.require burst latest
  return latest

/-- Channel state comes behind the input links, where the mix did not wait for them. -/
def beforeChannel (world : World) (sending : Sending) (burst : List Write) (latest : Reports) :
    Act Reports := do
  if burst.isEmpty then return latest
  let latest ← if sending.linksInputs && sending.mixExpectations.isEmpty then
      readAutoset world sending.config
    else pure latest
  sending.require burst latest
  return latest

/-- The checks in front of a phase. -/
def before (world : World) (sending : Sending) (phase : Phase) (burst remaining : List Write)
    (latest : Reports) : Act Reports :=
  match phase with
  | .link => sending.beforeLinks world remaining latest
  | .mix => sending.beforeMix world burst latest
  | .channel => sending.beforeChannel world burst latest
  | _ => return latest

/-- One phase: its checks, the guard and its burst. -/
def sendPhase (world : World) (sending : Sending) (phase : Phase) (burst remaining : List Write)
    (latest : Reports) (guard : Option PlaybackState) : Act (Reports × Option PlaybackState) := do
  let latest ← sending.before world phase burst remaining latest
  if burst.isEmpty then return (latest, guard)
  let guard ← guardCheck world sending.config guard
  send world (burst.map Write.message)
  return (latest, guard)

/-- A failure of one phase, reported for the whole apply. -/
def accountFor (written : List Path) (burst after : List Path) : Raised → Raised
  | .os cause => .writeFailed cause written (burst ++ after)
  | .writeFailed cause own pending => .writeFailed cause (written ++ own) (pending ++ after)
  | .fault fault => .fault fault

/-- The phases one after another; `written` are the paths of those behind. -/
def sendPhases (world : World) (sending : Sending) (written : List Path) (latest : Reports)
    (guard : Option PlaybackState) : List Phase → Act Unit
  | [] => return ()
  | phase :: rest => do
      let burst := sending.wanted.burst phase
      let remaining := rest.flatMap sending.wanted.burst
      let after := writePaths remaining
      if burst.isEmpty && after.isEmpty then return ()
      if ← askStop world then
        throw (.writeFailed (.stopped .phase) written (writePaths burst ++ after))
      let (latest, guard) ←
        tryCatch (sending.sendPhase world phase burst (burst ++ remaining) latest guard)
          fun problem => throw (accountFor written (writePaths burst) after problem)
      sending.sendPhases world (written ++ writePaths burst) latest guard rest

end Sending

/-- Links, the barrier, the mix, then channel state. -/
def sendInOrder (world : World) (sending : Sending) (latest : Reports) : Act Unit :=
  sending.sendPhases world [] latest none Phase.order

/-- The input links a start or a switch leaves alone: where AutoSet may own a gain and the link is
already reported at the planned value. -/
def stableLinks (plan : Plan) (latest : Reports) : List Path :=
  writePaths (plan.links.filter fun write => write.path.inFamily .input
    && (flagValue (latest write.path)).any fun flag => write.args.head? = some (.int flag))

/-- What an apply leaves alone, and the links it takes as confirmed. -/
def retainedFor (config : Config) (intent : ApplyIntent) (leaveAlone confirmed : List Path)
    (latest : Reports) : Except Fault (List Path × List Path) := do
  if intent.preservesRemember then
    let first ← applicationPlan config intent leaveAlone confirmed (some latest)
    let linked := writePaths (first.links.filter (·.args = [.int 1]))
    return (leaveAlone ++ (← rememberedPaths config (some latest) linked), confirmed)
  else if (retainedGains config latest [] false).isEmpty then return (leaveAlone, confirmed)
  else
    let stable := stableLinks (← applicationPlan config intent) latest
    return (leaveAlone ++ stable, confirmed ++ stable)

/-- A plan before it is checked: what it retains, what it takes as confirmed and the reports it is
made from. -/
structure Prepared where
  wanted : Plan
  retained : List Path
  confirmed : List Path
  latest : Reports

/-- The plan of an intent on the last reports. -/
def preparePlan (config : Config) (intent : ApplyIntent) (leaveAlone confirmed : List Path)
    (latest : Reports) : Except Fault Prepared := do
  let (retained, known) ← retainedFor config intent leaveAlone confirmed latest
  let wanted ← applicationPlan config intent retained known (some latest)
  return { wanted, retained, confirmed := known, latest }

/-- Validates the declaration, reads what it depends on, and plans. -/
def gather (world : World) (config : Config) (intent : ApplyIntent)
    (leaveAlone confirmed : List Path) (observed : Option Reports) : Act Prepared := do
  let _ ← planned (applicationPlan config intent leaveAlone confirmed observed)
  let latest ← match observed with
    | some reports => pure reports
    | none => readAutoset world config
  planned (preparePlan config intent leaveAlone confirmed latest)

/-- The plan that may be sent, refused where it could change what it retains, defeat AutoSet or
break a DSP limit. -/
def vet (world : World) (config : Config) (intent : ApplyIntent) (prepared : Prepared) :
    Act Plan := do
  let ⟨wanted, retained, confirmed, latest⟩ := prepared
  match ← planned (retentionProblem config wanted.writes retained confirmed (some latest)) with
  | some problem => throw (.writeFailed (.retention problem) [] (writePaths wanted.writes))
  | none => do
      if wanted.autosetOff.isEmpty then
        refuseGains config wanted latest intent retained confirmed
      withinDspLimits world config wanted latest intent

/-- Sends the routing: the planned registers, phase by phase. -/
def applyRouting (world : World) (config : Config) (intent : ApplyIntent)
    (requireLinkConfirmation leaveAlone confirmed : List Path) (observed : Option Reports) :
    Act Unit := do
  let prepared ← gather world config intent leaveAlone confirmed observed
  let wanted ← vet world config intent prepared
  sendQuietly world config wanted intent prepared.latest fun plan =>
    sendInOrder world
      { config, wanted := plan, requireConfirmation := requireLinkConfirmation, intent,
        retained := prepared.retained, confirmed := prepared.confirmed } prepared.latest

/-- Repairs the mix matrix without reasserting remembered starting values. -/
def sendMix (world : World) (config : Config) (confirmed : List Path) (observed : Option Reports) :
    Act Unit := do
  let wanted ← planned (matrixRepairPlan config confirmed observed)
  let retained ← planned (rememberedPaths config observed [])
  match ← planned (retentionProblem config wanted.writes retained confirmed observed) with
  | some problem => throw (.writeFailed (.retention problem) [] (writePaths wanted.writes))
  | none => do
      if wanted.writes.any fun write =>
          write.phase = .playbackMuteOn || write.phase = .playbackMuteOff then do
        let latest ← match observed with
          | some reports => pure reports
          | none => readAutoset world.unstopped config
        refuseGains config wanted latest .repair retained confirmed
        sendInOrder world.unstopped
          { config, wanted, requireConfirmation := [], intent := .repair, retained, confirmed }
          latest
      else do
        let _ ← guardCheck world config none
        send world (wanted.mix.map Write.message)

end OscmixDesk
