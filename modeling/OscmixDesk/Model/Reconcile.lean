/-
**Ordered write plans** (`reconcile.py`, second half).

`plan` compares the desired entries with what was observed; `applicationPlan` selects, by intent,
the writes an apply sends. Later operations preserve every remembered path, and a playback mute that
is retained protects its columns (`protectedEntries`); a mute is released only behind its whole
column (`playbackPrerequisites`). `retentionProblem` refuses a plan that could change a retained
register through a link.
-/

import OscmixDesk.Model.Entries

namespace OscmixDesk

/-! ### Intents, writes and plans -/

/-- Only a new session or an explicit desk selection owns starting values. -/
inductive ApplyIntent
  | initial
  | explicit
  | repair
  | reconcile
  deriving DecidableEq, Repr

def ApplyIntent.preservesRemember : ApplyIntent → Bool
  | .repair => true
  | .reconcile => true
  | _ => false

/-- Why a write is in the plan. -/
inductive WriteReason
  | missing
  | mismatched
  | rewrite
  | unconditional
  | prerequisite
  deriving DecidableEq, Repr

/-- One register the plan says to write, and why. -/
structure Write where
  path : Path
  tags : String
  args : Args
  phase : Phase
  reason : WriteReason
  deriving DecidableEq, Repr

/-- The message of a write. -/
def Write.message (write : Write) : Message where
  path := write.path
  tags := write.tags
  args := write.args

/-- What to write, what did not need writing and what cannot be told. -/
structure Plan where
  writes : List Write
  confirmed : List Path
  unverifiable : List Path
  retained : List Path := []
  deriving DecidableEq, Repr

/-- An entry as a write. -/
def Entry.write (entry : Entry) (reason : WriteReason) : Write where
  path := entry.path
  tags := entry.tags
  args := entry.args
  phase := entry.phase
  reason := reason

/-! ### Comparison -/

/-- Whether one reported argument satisfies the wanted one; `first` are the first arguments. -/
def argMatches (register : Option Register) (tolerance : Option ℚ) (first : Value × Value)
    (tag : Char) (wanted reported : Value) : Except NumericProblem Bool :=
  if tag = 'f' then equalFloat wanted reported register tolerance
  else if tag = 'i' then do
    match register with
    | none => sameInteger
    | some row =>
        if row.domain = some .number then
          let _ ← numberValue wanted row
        if row.domain ≠ none then
          let _ ← reportValue reported row
        if row.mixLevel then
          match wanted, reported with
          | .int want, .int got =>
              if ¬(-100 ≤ got ∧ got ≤ 100) then return false
              -- A silent cell reports no balance, so any balance satisfies it.
              if (← finite first.1) ≤ levelMin ∧ first.2 = .float (.infinite true)
                  ∧ -100 ≤ want ∧ want ≤ 100 then
                return true
              sameInteger
          | _, _ => return false
        else sameInteger
  else return false
where
  sameInteger : Except NumericProblem Bool := do
    return (← integer wanted) = (← integer reported)

/-- The arguments one by one. -/
def argsMatch (register : Option Register) (tolerance : Option ℚ) (first : Value × Value) :
    List Char → Args → Args → Bool
  | tag :: tags, wanted :: want, reported :: got =>
      (argMatches register tolerance first tag wanted reported).toOption.getD false
        && argsMatch register tolerance first tags want got
  | _, _, _ => true

/-- Whether a reported value satisfies a desired one. Further arguments of the report are
ignored. -/
def matchesReport (tags : String) (want got : Args) (tolerance : Option ℚ)
    (register : Option Register) : Bool :=
  match want, got with
  | wanted :: _, reported :: _ =>
      want.length ≤ got.length && tags.toList.length = want.length
        && argsMatch register tolerance (wanted, reported) tags.toList want got
  | _, _ => false

/-- How one entry stands against what was observed. -/
def compare (seen : Option (Path → Option Args)) (device : Option Device) (tolerance : Option ℚ)
    (entry : Entry) : Option WriteReason :=
  match seen with
  | none => some .unconditional
  | some observations =>
      let verify := if device.isSome then verifyClass device entry.path else some .verifiable
      if verify = some .reestablished ∨ verify = some .writeOnly
          ∨ (entry.compared = false ∧ observations entry.path = none) then
        some .rewrite
      else match observations entry.path with
      | none => some .missing
      | some got =>
          if matchesReport entry.tags entry.args got tolerance (registerAt device entry.path) then
            none
          else some .mismatched

/-- What to write to get from `seen` to the entries; nothing observed writes every entry. -/
def plan (entries : List Entry) (seen : Option (Path → Option Args) := none)
    (device : Option Device := none) (tolerance : Option ℚ := none) : Plan where
  writes := bucketSort Phase.order Write.phase
    (entries.filterMap fun entry => (compare seen device tolerance entry).map entry.write)
  confirmed := (entries.filter fun entry => compare seen device tolerance entry = none).map (·.path)
  unverifiable :=
    (entries.filter fun entry => compare seen device tolerance entry = some .rewrite).map (·.path)

/-! ### Who keeps a register -/

/-- PIN or REMEMBER for a path, the configuration's word beating the table. -/
def policyFor (path : Path) (device : Option Device)
    (overrides : List ((Family × String) × Policy)) : Policy :=
  match path with
  | .channel family _ (.flat option) =>
      (overrides.lookup (family, option)).getD (registerPolicy device path)
  | _ => registerPolicy device path

/-- Whether a later operation leaves an entry to the device. -/
def isRemembered (config : Config) (entry : Entry) : Bool :=
  entry.base || policyFor entry.path (deviceForName config.deviceName) config.policies ≠ .pin

/-- Declared REMEMBER registers and gains owned by AutoSet, including undeclared partners. -/
def rememberedPaths (config : Config) (observed : Option Reports) (linked : List Path) :
    Except Fault (List Path) := do
  let entries ← desired config
  return (entries.filter (isRemembered config)).map (·.path)
    ++ retainedGains config (observed.getD noReports) linked

/-- The link registers of a route. -/
def linkPaths (route : Route) : List Path :=
  (linkMessages route).map (·.path)

/-- The matrix registers of a route. -/
def mixPaths (route : Route) : List Path :=
  ((mixMessages route).map (·.path)).filter Path.isMix

/-- Indirect paths an unobservable retained playback mute cannot authorize. -/
def protectedEntries (config : Config) (retained confirmed : List Path) : List Path :=
  let pairs := retainedPairs retained
  if pairs.isEmpty then []
  else
    let own := pairs.flatMap fun left => [mutePath left, mutePath (left + 1)]
    let links := pairs.flatMap fun left => [.link .playback left, .link .playback (left + 1)]
    let outputs := (config.routes.flatMap linkPaths).filter fun path =>
      path.inFamily .output && !confirmed.contains path
    let protectedLinks := own ++ links ++ outputs
    let routed := (config.routes.filter fun route =>
      (route.playback.any fun channel => pairs.any fun left => channel = left || channel = left + 1)
        || (linkPaths route).any protectedLinks.contains).flatMap fun route =>
          (mixMessages route).map (·.path)
    protectedLinks ++ routed

/-! ### Application plans -/

/-- What one released mute needs: ON before it, its links and its whole column. -/
structure Prerequisites where
  left : ℕ
  mutes : List Path
  cells : List Path
  links : List Path

/-- What the release of a playback channel needs, by the routes from its pair. -/
def prerequisites (config : Config) (channel : ℕ) : Prerequisites :=
  let left := pairLeft channel
  let users := config.routes.filter fun route =>
    route.playback.any fun source => source = left || source = left + 1
  { left
    mutes := [mutePath left, mutePath (left + 1)]
    cells := users.flatMap mixPaths
    links := users.flatMap linkPaths }

/-- The channel a playback mute write is for. -/
def Write.channel (write : Write) : ℕ :=
  write.path.firstChannel.getD 0

/-- The temporary mute in front of a release. -/
def prerequisiteOn (off : Write) : Write where
  path := off.path
  tags := "i"
  args := [.int 1]
  phase := .playbackMuteOn
  reason := .prerequisite

/-- Whether a release finds everything it needs in the plan. -/
def released (mutes : List (ℕ × ℤ)) (paths confirmed : List Path) (needs : Prerequisites) : Bool :=
  lookupLast mutes needs.left = some 0 && lookupLast mutes (needs.left + 1) = some 0
    && (needs.mutes ++ needs.cells).all paths.contains
    && needs.links.all fun path => paths.contains path || confirmed.contains path

/-- One release's temporary mute, refused when the plan lacks what it needs. -/
def releaseOf (config : Config) (mutes : List (ℕ × ℤ)) (paths confirmed : List Path)
    (off : Write) : Except Fault Write :=
  if released mutes paths confirmed (prerequisites config off.channel) then
    .ok (prerequisiteOn off)
  else .error (.value (.unmuteBypass (pairLeft off.channel)))

/-- A complete selected OFF releases only after visible ON, link and mix phases. -/
def playbackPrerequisites (config : Config) (selected : Plan) (retained confirmed : List Path) :
    Except Fault Plan := do
  let mutes ← orNumeric (declaredMutes config)
  let off := selected.writes.filter (·.phase = .playbackMuteOff)
  let before ← off.mapM (releaseOf config mutes (selected.writes.map (·.path)) confirmed)
  return { selected with
    writes := bucketSort Phase.order Write.phase (before ++ selected.writes)
    retained := retained }

/-- The links a plan writes as linked. -/
def linkedBy (entries : List Entry) (skip : List Path) : List Path :=
  (entries.filter fun entry => entry.phase = .link && !skip.contains entry.path
    && entry.args = [.int 1]).map (·.path)

/-- The paths a later operation leaves alone: confirmed links and everything remembered. -/
def preservedPaths (config : Config) (entries : List Entry) (leaveAlone confirmed : List Path)
    (observed : Option Reports) : Except Fault (List Path) := do
  let skip := leaveAlone ++ (entries.filter fun entry =>
    entry.phase = .link && confirmed.contains entry.path).map (·.path)
  return skip ++ (← rememberedPaths config observed (linkedBy entries skip))

/-- The writes of one intent, without turning preserved state into confirmed state. -/
def applicationPlan (config : Config) (intent : ApplyIntent) (leaveAlone : List Path := [])
    (confirmed : List Path := []) (observed : Option Reports := none) : Except Fault Plan := do
  let entries ← desired config
  let skip ← if intent.preservesRemember then
      preservedPaths config entries leaveAlone confirmed observed
    else pure leaveAlone
  let retained := skip ++ protectedEntries config skip confirmed
  playbackPrerequisites config (plan (entries.filter fun entry => !retained.contains entry.path))
    retained confirmed

/-- Matrix repair, which cannot discard selected mute prerequisites. -/
def matrixRepairPlan (config : Config) (confirmed : List Path := [])
    (observed : Option Reports := none) : Except Fault Plan := do
  let wanted ← applicationPlan config .repair [] confirmed observed
  let muting := wanted.writes.any fun write =>
    write.phase = .playbackMuteOn || write.phase = .playbackMuteOff
  let phases : List Phase :=
    if muting then [.mix, .playbackMuteOn, .playbackMuteOff, .link] else [.mix]
  return { wanted with writes := wanted.writes.filter fun write => phases.contains write.phase }

/-! ### Indirect changes -/

/-- Why a plan could change what it must retain. -/
inductive RetentionProblem
  | blocked (paths : List Path)
  | unconfirmedLinks (paths : List Path)
  | linkCopies (write : Path) (affected : List Path)
  | linkedPartner (write partner : Path)
  deriving DecidableEq, Repr

/-- What the check of a plan against retained registers looks at. -/
structure Retention where
  keep : List Path
  known : List Path
  observed : Option Reports
  /-- The observations requested afresh for this plan. -/
  refreshed : List Path
  declared : Path → Option Args
  selected : List Write

/-- Whether a pair is shown to be two channels, and stays so under the plan. -/
def Retention.apart (facts : Retention) (link : Path) : Bool :=
  let latest := facts.observed.getD noReports
  let mono :=
    if facts.refreshed.contains link || (latest link).isSome then flagValue (latest link) = some 0
    else facts.known.contains link && facts.declared link = some [.int 0]
  mono && !facts.selected.any fun write => write.path = link && write.args = [.int 1]

/-- The other channel of a pair. -/
def partnerOf (channel : ℕ) : ℕ :=
  pairLeft channel + if channel = pairLeft channel then 1 else 0

/-- A write of an input or an output that could change a kept register of its pair. -/
def Retention.writeProblem (facts : Retention) (write : Write) : Option RetentionProblem :=
  match write.path with
  | .channel .playback _ _ => none
  | .channel family channel setting =>
      let left := pairLeft channel
      if setting = .flat "stereo" then
        let affected := facts.keep.filter fun path =>
          match path with
          | .channel own number _ => own = family && (number = left || number = left + 1)
          | _ => false
        if affected.isEmpty then none else some (.linkCopies write.path affected)
      else
        let partner := Path.channel family (partnerOf channel) setting
        if facts.keep.contains partner && !facts.apart (.link family left) then
          some (.linkedPartner write.path partner)
        else none
  | _ => none

/-- A route whose matrix is written while a retained link of it is not confirmed. -/
def Retention.routeProblem (facts : Retention) (route : Route) : Option RetentionProblem :=
  let writes := facts.selected.map (·.path)
  if (mixPaths route).any writes.contains then
    let missing := (linkPaths route).filter fun path =>
      facts.keep.contains path && !facts.known.contains path
    if missing.isEmpty then none else some (.unconfirmedLinks missing)
  else none

/-- Indirect changes to retained settings and unknown retained links, or `none`. -/
def retentionProblem (config : Config) (selected : List Write) (retained confirmed : List Path)
    (observed : Option Reports) : Except Fault (Option RetentionProblem) := do
  let blocked := (selected.map (·.path)).filter
    (protectedEntries config retained confirmed).contains
  if !blocked.isEmpty then return some (.blocked blocked)
  let entries ← desired config
  let facts : Retention :=
    { keep := retained, known := confirmed, observed
      refreshed := if observed.isSome then dependencyPaths config else []
      declared := fun path => (entries.reverse.find? (·.path = path)).map (·.args)
      selected }
  match config.routes.findSome? facts.routeProblem with
  | some problem => return some problem
  | none => return selected.findSome? facts.writeProblem

end OscmixDesk
