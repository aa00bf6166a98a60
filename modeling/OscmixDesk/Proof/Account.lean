/-
**The account a failed apply gives of its writes.**

Refused before it sends, an apply names every planned write as pending; sent phase by phase, it names
exactly what went out and what did not (`sendPlan_ends`). A peak-safe apply writes more than its
plan, the volumes it pulls down and gives back, and reports only the stage that fails: what the other
stages wrote is missing from the account (`exactAccount_iff`).
-/

import Mathlib.Data.Multiset.AddSub
import OscmixDesk.Proof.Planning
import OscmixDesk.Proof.Sending

namespace OscmixDesk

open Effects

/-! ### Exact accounts -/

/-- Whether an account is exact: `written` are the paths of the writes that went out, in order, and
`unwritten` those of the planned writes that did not. -/
def ExactAccount (start stop : Session) (planned : List Write) (written unwritten : List Path) :
    Prop :=
  ∃ out : List Message, stop.sent = start.sent ++ out ∧ written = messagePaths out
    ∧ (unwritten : Multiset Path)
      = (((planned.map Write.message : List Message) : Multiset Message) - out).map (·.path)

theorem messagePaths_writes (writes : List Write) :
    messagePaths (writes.map Write.message) = writePaths writes := by
  unfold messagePaths writePaths
  rw [List.map_map]
  rfl

/-- The writes of a plan, in the order they go out. -/
theorem inOrder_perm (sending : Sending) :
    (sending.inOrder Phase.order).Perm sending.wanted.writes := by
  have bursts : sending.inOrder Phase.order
      = Phase.order.flatMap fun phase => sending.wanted.writes.filter (·.phase = phase) := rfl
  rw [bursts]
  exact bucketSort_writes_perm sending.wanted.writes

/-- An account of a prefix of a plan is exact. -/
theorem exactAccount_prefix {start stop : Session} {planned writes : List Write} {count : ℕ}
    (same : writes.Perm planned)
    (sent : stop.sent = start.sent ++ (writes.take count).map Write.message) :
    ExactAccount start stop planned (writePaths (writes.take count))
      (writePaths (writes.drop count)) := by
  refine ⟨(writes.take count).map Write.message, sent, (messagePaths_writes _).symm, ?_⟩
  have whole : ((planned.map Write.message : List Message) : Multiset Message)
      = ((writes.drop count).map Write.message : List Message)
        + ((writes.take count).map Write.message : List Message) := by
    rw [Multiset.coe_add, ← List.map_append]
    refine Multiset.coe_eq_coe.mpr ((same.symm.trans ?_).map _)
    have swapped : (writes.take count ++ writes.drop count).Perm
        (writes.drop count ++ writes.take count) := List.perm_append_comm
    rwa [List.take_append_drop] at swapped
  rw [whole, Multiset.add_sub_cancel_right, Multiset.map_coe]
  congr 1
  exact (messagePaths_writes _).symm

/-- What went out is determined by the sessions. -/
theorem out_unique {start stop : Session} {first second : List Message}
    (one : stop.sent = start.sent ++ first) (two : stop.sent = start.sent ++ second) :
    first = second :=
  List.append_cancel_left (one.symm.trans two)

/-- An account that names less than what went out is not exact. -/
theorem not_exactAccount {start stop : Session} {planned : List Write} {out : List Message}
    {written unwritten : List Path} (sent : stop.sent = start.sent ++ out)
    (short : written.length < out.length) : ¬ ExactAccount start stop planned written unwritten := by
  rintro ⟨other, sent', paths, -⟩
  have same : other = out := out_unique sent' sent
  rw [paths, same, messagePaths, List.length_map] at short
  exact short.false

/-! ### Quieted outputs -/

section Quieted

variable (world : World) (wanted : Plan) (volumes : List (ℕ × ℚ))

/-- Giving the volumes back never hides the failure before it. -/
theorem giveBackAnyway_ends (declared : Path → Option Args) (start : Session) :
    Ends (giveBackAnyway world volumes declared) start
      (fun _ stop => ∃ count, stop.sent
        = start.sent ++ (givingBack volumes declared).take count)
      fun _ _ => False := by
  unfold giveBackAnyway
  rw [ends_catch]
  refine (send_ends world _ start).imp (fun _ stop all => ?_) fun problem stop failed => ?_
  · exact ⟨(givingBack volumes declared).length, by rw [List.take_length]; exact all⟩
  · obtain ⟨cause, count, rfl, sent⟩ := failed
    exact ⟨count, sent⟩

/-- How a peak-safe apply fails: in the pull-downs, in the rest or in the give-back. -/
inductive QuietedFailed (start : Session) (rest back : List Message) (problem : Raised)
    (stop : Session) : Prop
  | pulling (failed : send world (quieting volumes) start = (.error problem, stop))
  | sending (count : ℕ) (pulled : ∃ later, send world (quieting volumes) start = (.ok (), later))
      (account : ∃ cause unwritten,
        problem = .writeFailed cause (messagePaths (rest.take count)) unwritten)
      (sent : ∃ returned, stop.sent
        = start.sent ++ quieting volumes ++ rest.take count ++ back.take returned)
  | giving (count : ℕ) (pulled : ∃ later, send world (quieting volumes) start = (.ok (), later))
      (account : ∃ cause, problem = .writeFailed cause (messagePaths (back.take count))
        (messagePaths (back.drop count)))
      (sent : stop.sent = start.sent ++ quieting volumes ++ rest ++ back.take count)

variable {world wanted volumes}

theorem sendQuieted_ends {sendPlan : Plan → Act Unit} {writes : List Write}
    (plan : ∀ start, Ends (sendPlan (withoutQuieted wanted volumes)) start
      (fun _ stop => stop.sent = start.sent ++ writes.map Write.message)
      (Sending.PlanFailed start [] writes)) (start : Session) :
    Ends (sendQuieted world wanted volumes sendPlan) start
      (fun _ stop => stop.sent = start.sent ++ quieting volumes ++ writes.map Write.message
        ++ givingBack volumes (declaredVolumes wanted))
      (QuietedFailed world volumes start (writes.map Write.message)
        (givingBack volumes (declaredVolumes wanted))) := by
  unfold sendQuieted
  rw [ends_bind]
  refine ends_iff.mpr ⟨fun _ middle pulled => ?_, fun problem stop failed => .pulling failed⟩
  have down : middle.sent = start.sent ++ quieting volumes :=
    (send_ends world _ start).returned pulled
  rw [ends_bind, ends_catch]
  refine (plan middle).imp (fun _ later all => ?_) fun problem later failed => ?_
  · refine (send_ends world _ later).imp (fun _ stop back => ?_) fun problem stop failed => ?_
    · rw [back, all, down]
    · obtain ⟨cause, count, account, sent⟩ := failed
      exact .giving count ⟨middle, pulled⟩ ⟨cause, account⟩ (by rw [sent, all, down])
  · rw [ends_bind]
    refine (giveBackAnyway_ends world volumes _ later).imp (fun _ stop back => ?_)
      fun _ _ never => never.elim
    obtain ⟨returned, back⟩ := back
    show QuietedFailed _ _ _ _ _ _ _
    obtain ⟨cause, count, same, sent⟩ := failed
    refine .sending count ⟨middle, pulled⟩ ⟨cause, writePaths (writes.drop count), ?_⟩
      ⟨returned, ?_⟩
    · rw [same, ← List.map_take, messagePaths_writes]
      rfl
    · rw [back, sent, down, List.map_take]

end Quieted

/-! ### The stages of an apply -/

theorem looks_gather (world : World) (config : Config) (intent : ApplyIntent)
    (leaveAlone confirmed : List Path) (observed : Option Reports) :
    Looks true (gather world config intent leaveAlone confirmed observed) := by
  unfold gather
  refine (Looks.planned (Or.inl rfl)).bind fun _ => ?_
  cases observed with
  | none => exact (looks_readAutoset world config []).bind fun _ => Looks.planned (Or.inl rfl)
  | some reports => exact (Looks.ret reports).bind fun _ => Looks.planned (Or.inl rfl)

theorem looks_pulledVolumes (world : World) (config : Config) (wanted : Plan)
    (intent : ApplyIntent) (latest : Reports) :
    Looks true (pulledVolumes world config wanted intent latest) := by
  unfold pulledVolumes
  cases deviceForName config.deviceName with
  | none => exact Looks.ret _
  | some device =>
      exact Looks.ite (Looks.ret _) ((looks_readAll world _ _).bind fun _ => Looks.ret _)

theorem looks_dspLimitProblem (world : World) (config : Config) (writes : List Write)
    (latest : Reports) : Looks true (dspLimitProblem world config writes latest) := by
  refine (Looks.planned (Or.inl rfl)).bind fun _ => Looks.ite (Looks.ret _) ?_
  exact (looks_readAll world _ _).bind fun _ => Looks.planned (Or.inl rfl)

/-- A plan is made of entries that can be made. -/
theorem gather_plans {world : World} {config : Config} {intent : ApplyIntent}
    {leaveAlone confirmed : List Path} {observed : Option Reports} {start middle : Session}
    {prepared : Prepared} (gathered : gather world config intent leaveAlone confirmed observed start
      = (.ok prepared, middle)) : ∃ entries, desired config = .ok entries := by
  cases made : desired config with
  | ok entries => exact ⟨entries, rfl⟩
  | error fault =>
      have unplanned : applicationPlan config intent leaveAlone confirmed observed
          = .error fault := by
        unfold applicationPlan
        rw [made]
        rfl
      unfold gather at gathered
      rw [unplanned] at gathered
      cases gathered

/-- An account is of a refusal in front of the first write: it names every write as pending. -/
def NothingGone (writes : List Write) (problem : Raised) : Prop :=
  ∀ cause written unwritten, problem = .writeFailed cause written unwritten →
    written = [] ∧ unwritten = writePaths writes

theorem Raised.Plain.nothingGone {problem : Raised} (plain : problem.Plain true)
    (writes : List Write) : NothingGone writes problem := by
  rintro cause written unwritten rfl
  exact plain.elim

theorem nothingGone_writeFailed (cause : Cause) (writes : List Write) :
    NothingGone writes (.writeFailed cause [] (writePaths writes)) := by
  intro _ _ _ same
  cases same
  exact ⟨rfl, rfl⟩

theorem refuseGains_ends (config : Config) (wanted : Plan) (latest : Reports)
    (intent : ApplyIntent) (retained confirmed : List Path) (start : Session) :
    Ends (refuseGains config wanted latest intent retained confirmed) start
      (fun _ stop => Looked start stop)
      fun problem stop => Looked start stop ∧ NothingGone wanted.writes problem := by
  unfold refuseGains
  rw [ends_bind]
  refine (Looks.planned (Or.inl rfl) start).imp (fun problem middle looked => ?_) fun _ _ failed =>
    ⟨failed.1, failed.2.nothingGone _⟩
  cases problem with
  | none => exact looked
  | some problem => exact ⟨looked, nothingGone_writeFailed _ _⟩

theorem withinDspLimits_ends (world : World) (config : Config) (wanted : Plan) (latest : Reports)
    (intent : ApplyIntent) (start : Session) :
    Ends (withinDspLimits world config wanted latest intent) start
      (fun _ stop => Looked start stop)
      fun problem stop => Looked start stop ∧ NothingGone wanted.writes problem := by
  unfold withinDspLimits
  rw [ends_bind]
  refine (looks_dspLimitProblem world config wanted.writes latest start).imp
    (fun problem middle looked => ?_) fun _ _ failed => ⟨failed.1, failed.2.nothingGone _⟩
  cases problem with
  | none => exact looked
  | some problem =>
      show Ends (if intent = .explicit then _ else _) middle _ _
      by_cases explicit : intent = .explicit
      · rw [if_pos explicit]
        exact ⟨looked, nothingGone_writeFailed _ _⟩
      · rw [if_neg explicit, ends_bind]
        exact (Looks.planned (Or.inl rfl) middle).imp (fun _ _ more => looked.trans more) fun _ _ failed =>
          ⟨looked.trans failed.1, failed.2.nothingGone _⟩

theorem vet_ends (world : World) (config : Config) (intent : ApplyIntent) (prepared : Prepared)
    (start : Session) :
    Ends (vet world config intent prepared) start (fun _ stop => Looked start stop)
      fun problem stop => Looked start stop ∧ NothingGone prepared.wanted.writes problem := by
  obtain ⟨wanted, retained, confirmed, latest⟩ := prepared
  unfold vet
  rw [ends_bind]
  refine (Looks.planned (Or.inl rfl) start).imp (fun problem middle looked => ?_) fun _ _ failed =>
    ⟨failed.1, failed.2.nothingGone _⟩
  have limited (middle : Session) (looked : Looked start middle) :
      Ends (withinDspLimits world config wanted latest intent) middle
        (fun _ stop => Looked start stop)
        fun problem stop => Looked start stop ∧ NothingGone wanted.writes problem :=
    (withinDspLimits_ends world config wanted latest intent middle).imp
      (fun _ _ more => looked.trans more) fun _ _ failed => ⟨looked.trans failed.1, failed.2⟩
  cases problem with
  | some problem => exact ⟨looked, nothingGone_writeFailed _ _⟩
  | none =>
      show Ends (if wanted.autosetOff.isEmpty = true then _ else _) middle _ _
      by_cases off : wanted.autosetOff.isEmpty = true
      · rw [if_pos off, ends_bind]
        refine (refuseGains_ends config wanted latest intent retained confirmed middle).imp
          (fun _ later more => limited later (looked.trans more)) fun _ _ failed =>
            ⟨looked.trans failed.1, failed.2⟩
      · rw [if_neg off]
        exact limited middle looked

/-- What an apply set out to do once its plan is checked: the plan, the volumes it pulls down and
the session it starts to write in. -/
structure Attempt where
  wanted : Plan
  volumes : List (ℕ × ℚ)
  begins : Session

/-- The attempt of a prepared plan; one that is refused pulls nothing down. -/
def attempt (world : World) (config : Config) (intent : ApplyIntent) (prepared : Prepared)
    (middle : Session) : Attempt :=
  match vet world config intent prepared middle with
  | (.error _, later) => ⟨prepared.wanted, [], later⟩
  | (.ok wanted, later) =>
      match pulledVolumes world config wanted intent prepared.latest later with
      | (.error _, last) => ⟨wanted, [], last⟩
      | (.ok volumes, last) => ⟨wanted, volumes, last⟩

namespace Attempt

/-- The plan that goes out between the volumes. -/
def between (attempt : Attempt) : Plan :=
  if attempt.volumes.isEmpty then attempt.wanted
  else withoutQuieted attempt.wanted attempt.volumes

/-- The writes of that plan, in the order they go out. -/
def rest (attempt : Attempt) : List Write :=
  Phase.order.flatMap attempt.between.burst

/-- The writes that give the volumes back. -/
def back (attempt : Attempt) : List Message :=
  givingBack attempt.volumes (declaredVolumes attempt.wanted)

/-- What an attempt that nothing stops sends. -/
def messages (attempt : Attempt) : List Message :=
  quieting attempt.volumes ++ attempt.rest.map Write.message ++ attempt.back

/-- How an attempt fails. -/
def Failed (world : World) (attempt : Attempt) (problem : Raised) (stop : Session) : Prop :=
  (attempt.volumes = [] ∧ ∃ writes, writes.Perm attempt.wanted.writes
      ∧ Sending.PlanFailed attempt.begins [] writes problem stop)
    ∨ (attempt.volumes ≠ [] ∧ QuietedFailed world attempt.volumes attempt.begins
        (attempt.rest.map Write.message) attempt.back problem stop)

end Attempt

/-- A plan goes out in the order of its phases. -/
theorem sendPlan_ends (world : World) {sending : Sending} (plans : sending.Plans)
    (latest : Reports) (start : Session) :
    Ends (sendInOrder world sending latest) start
      (fun _ stop => stop.sent
        = start.sent ++ (sending.inOrder Phase.order).map Write.message)
      (Sending.PlanFailed start [] (sending.inOrder Phase.order)) :=
  Sending.sendPhases_ends world plans Phase.order [] latest none start

/-- A refusal in front of the first write is a failed attempt that pulls nothing down. -/
theorem NothingGone.failed {world : World} {wanted : Plan} {problem : Raised} {begins stop : Session}
    (nothing : NothingGone wanted.writes problem) (notPlain : ¬ problem.Plain true)
    (same : stop.sent = begins.sent) :
    Attempt.Failed world ⟨wanted, [], begins⟩ problem stop := by
  refine Or.inl ⟨rfl, wanted.writes, List.Perm.refl _, ?_⟩
  cases problem with
  | os cause => exact absurd trivial notPlain
  | fault fault => exact absurd rfl notPlain
  | writeFailed cause written unwritten =>
      have account := nothing cause written unwritten rfl
      refine ⟨cause, 0, ?_, by simpa using same⟩
      rw [account.1, account.2]
      rfl

/-- What stays fixed while the plan of an apply is sent. -/
def Prepared.sending (config : Config) (requireLinkConfirmation : List Path) (intent : ApplyIntent)
    (prepared : Prepared) (plan : Plan) : Sending where
  config := config
  wanted := plan
  requireConfirmation := requireLinkConfirmation
  intent := intent
  retained := prepared.retained
  confirmed := prepared.confirmed

/-- How the sending of a checked plan ends, with the volumes it pulls down. -/
theorem quietly_ends (world : World) (wanted : Plan) (volumes : List (ℕ × ℚ)) (begins : Session)
    (sending : Plan → Sending) (plans : ∀ plan, (sending plan).Plans)
    (sends : ∀ plan, (sending plan).wanted = plan) (latest : Reports) :
    Ends (if volumes.isEmpty then sendInOrder world (sending wanted) latest
        else sendQuieted world wanted volumes fun plan => sendInOrder world (sending plan) latest)
      begins (fun _ stop => stop.sent
        = begins.sent ++ (Attempt.mk wanted volumes begins).messages)
      (Attempt.Failed world ⟨wanted, volumes, begins⟩) := by
  by_cases none : volumes.isEmpty = true
  · have empty : volumes = [] := List.isEmpty_iff.mp none
    subst empty
    rw [if_pos none]
    have order : (sending wanted).inOrder Phase.order = (Attempt.mk wanted [] begins).rest := by
      show Phase.order.flatMap (sending wanted).wanted.burst = _
      rw [sends]
      rfl
    refine (sendPlan_ends world (plans wanted) latest begins).imp (fun _ stop all => ?_)
      fun problem stop failed => Or.inl ⟨rfl, _, ?_, failed⟩
    · rw [all, order, Attempt.messages]
      simp [quieting, Attempt.back, givingBack]
    · have perm := inOrder_perm (sending wanted)
      rwa [sends] at perm
  · rw [if_neg none]
    have order : (sending (withoutQuieted wanted volumes)).inOrder Phase.order
        = (Attempt.mk wanted volumes begins).rest := by
      show Phase.order.flatMap (sending (withoutQuieted wanted volumes)).wanted.burst = _
      rw [sends, Attempt.rest, Attempt.between, if_neg none]
    have plan := fun start => sendPlan_ends world (plans (withoutQuieted wanted volumes)) latest
      start
    simp only [order] at plan
    refine (sendQuieted_ends plan begins).imp (fun _ stop all => ?_) fun problem stop failed =>
      Or.inr ⟨fun empty => none (List.isEmpty_iff.mpr empty), failed⟩
    rw [all, Attempt.messages]
    simp [Attempt.back, List.append_assoc]

/-- How an apply ends: its attempt goes out in full, or fails; a plain error comes before it wrote
anything. -/
theorem applyRouting_ends (world : World) (config : Config) (intent : ApplyIntent)
    (requireLinkConfirmation leaveAlone confirmed : List Path) (observed : Option Reports)
    (start : Session) :
    Ends (applyRouting world config intent requireLinkConfirmation leaveAlone confirmed observed)
      start
      (fun _ stop => ∃ prepared middle,
        gather world config intent leaveAlone confirmed observed start = (.ok prepared, middle)
          ∧ stop.sent = start.sent ++ (attempt world config intent prepared middle).messages)
      fun problem stop => (stop.sent = start.sent ∧ problem.Plain true)
        ∨ ∃ prepared middle,
          gather world config intent leaveAlone confirmed observed start = (.ok prepared, middle)
            ∧ (attempt world config intent prepared middle).begins.sent = start.sent
            ∧ (attempt world config intent prepared middle).Failed world problem stop := by
  unfold applyRouting
  rw [ends_bind]
  refine ends_iff.mpr ⟨fun prepared middle gathered => ?_, fun problem stop failed => ?_⟩
  · have looked : Looked start middle :=
      (looks_gather world config intent leaveAlone confirmed observed start).returned gathered
    have plans := gather_plans gathered
    rw [ends_bind]
    refine ends_iff.mpr ⟨fun wanted later vetted => ?_, fun problem stop refused => ?_⟩
    · have looked' : Looked start later :=
        looked.trans ((vet_ends world config intent prepared middle).returned vetted)
      have reading := looks_pulledVolumes world config wanted intent prepared.latest later
      unfold sendQuietly
      rw [ends_bind]
      refine ends_iff.mpr ⟨fun volumes begins read => ?_, fun problem stop failed => ?_⟩
      · have same : begins.sent = start.sent := (looked'.trans (reading.returned read)).sent
        have known : attempt world config intent prepared middle = ⟨wanted, volumes, begins⟩ := by
          simp only [attempt, vetted, read]
        refine (quietly_ends world wanted volumes begins
          (prepared.sending config requireLinkConfirmation intent) (fun _ => plans) (fun _ => rfl)
          prepared.latest).imp
          (fun _ stop all => ⟨prepared, middle, gathered, ?_⟩) fun problem stop failed =>
            Or.inr ⟨prepared, middle, gathered, ?_⟩
        · rw [known, all, same]
        · rw [known]
          exact ⟨same, failed⟩
      · have seen := reading.raised failed
        exact Or.inl ⟨(looked'.trans seen.1).sent, seen.2⟩
    · have refusal := (vet_ends world config intent prepared middle).raised refused
      have silent : stop.sent = start.sent := (looked.trans refusal.1).sent
      by_cases plain : problem.Plain true
      · exact Or.inl ⟨silent, plain⟩
      · have known : attempt world config intent prepared middle
            = ⟨prepared.wanted, [], stop⟩ := by
          simp only [attempt, refused]
        refine Or.inr ⟨prepared, middle, gathered, ?_⟩
        rw [known]
        exact ⟨silent, refusal.2.failed plain rfl⟩
  · have seen := (looks_gather world config intent leaveAlone confirmed observed start).raised failed
    exact Or.inl ⟨seen.1.sent, seen.2⟩

/-! ### Which accounts are exact -/

/-- Whether a plan is of volumes only, as its pull-downs are: its writes are some of the pull-downs
that went out, and one for each output the others are for. -/
def OnlyQuiets (planned gone left : List Message) : Prop :=
  ∃ silent others : Multiset Message, (planned : Multiset Message) = silent + others
    ∧ silent ≤ gone ∧ others.map (·.path) = messagePaths left

/-- Whether the account a failed attempt gives is the account of everything it wrote: nothing was
pulled down, or the pull-downs failed and are all there is to write. -/
def Attempt.Accountable (world : World) (attempt : Attempt) : Prop :=
  attempt.volumes = [] ∨ ∃ cause count stop,
    send world (quieting attempt.volumes) attempt.begins
        = (.error (.writeFailed cause (messagePaths ((quieting attempt.volumes).take count))
            (messagePaths ((quieting attempt.volumes).drop count))), stop)
      ∧ OnlyQuiets (attempt.wanted.writes.map Write.message)
          ((quieting attempt.volumes).take count) ((quieting attempt.volumes).drop count)

/-- The pull-downs are of distinct outputs. -/
theorem changedOutputs_nodup {name : String} {device : Device} (paths : List Path)
    (modelled : deviceForName name = some device) : (changedOutputs paths device).Nodup := by
  have all : (device.channelsFor "output").Nodup := by
    obtain ⟨half, _, counted⟩ := (deviceForName_tabled modelled).counted
    rw [show device.channelsFor "output" = seq 1 (2 * half) from counted .output]
    exact List.nodup_range'
  unfold changedOutputs
  by_cases every : paths.any changesAll = true
  · rw [if_pos every]
    exact all
  · rw [if_neg every]
    exact all.filter _

theorem reportedVolumes_nodup {outputs : List ℕ} (distinct : outputs.Nodup) (observed : Reports) :
    ((reportedVolumes outputs observed).map Prod.fst).Nodup := by
  refine List.Nodup.sublist ?_ distinct
  induction outputs with
  | nil => exact List.Sublist.refl _
  | cons output rest ih =>
      have later := ih distinct.of_cons
      unfold reportedVolumes at later ⊢
      rw [List.filterMap_cons]
      cases reportedVolume (observed (.volume output)) with
      | none => exact later.cons _
      | some volume => exact later.cons_cons _

theorem pulledVolumes_nodup (world : World) (config : Config) (wanted : Plan)
    (intent : ApplyIntent) (latest : Reports) (start : Session) :
    Ends (pulledVolumes world config wanted intent latest) start
      (fun volumes _ => (volumes.map Prod.fst).Nodup) fun _ _ => True := by
  unfold pulledVolumes
  cases modelled : deviceForName config.deviceName with
  | none => exact List.nodup_nil
  | some device =>
      show Ends (if _ then _ else _) start _ _
      rw [ends_ite]
      refine ⟨fun _ => List.nodup_nil, fun _ => ?_⟩
      rw [ends_bind]
      refine (ends_self _ start).imp (fun read _ _ => ?_) fun _ _ _ => trivial
      exact reportedVolumes_nodup (changedOutputs_nodup _ modelled) _

theorem attempt_volumes_nodup (world : World) (config : Config) (intent : ApplyIntent)
    (prepared : Prepared) (middle : Session) :
    ((attempt world config intent prepared middle).volumes.map Prod.fst).Nodup := by
  rcases vetted : vet world config intent prepared middle with ⟨problem | wanted, later⟩
  · have known : attempt world config intent prepared middle = ⟨prepared.wanted, [], later⟩ := by
      simp only [attempt, vetted]
    rw [known]
    exact List.nodup_nil
  · have distinct := pulledVolumes_nodup world config wanted intent prepared.latest later
    rcases read : pulledVolumes world config wanted intent prepared.latest later
      with ⟨problem | volumes, last⟩
    · have known : attempt world config intent prepared middle = ⟨wanted, [], last⟩ := by
        simp only [attempt, vetted, read]
      rw [known]
      exact List.nodup_nil
    · have known : attempt world config intent prepared middle = ⟨wanted, volumes, last⟩ := by
        simp only [attempt, vetted, read]
      rw [known]
      exact distinct.returned read

theorem quieting_nodup {volumes : List (ℕ × ℚ)} (distinct : (volumes.map Prod.fst).Nodup) :
    (messagePaths (quieting volumes)).Nodup := by
  have paths : messagePaths (quieting volumes) = (volumes.map Prod.fst).map Path.volume := by
    simp [messagePaths, quieting, volumeMessage, Function.comp_def]
  rw [paths]
  refine distinct.map fun first second same => ?_
  simpa using same

/-- What is left of a plan, where the pull-downs of distinct outputs end part of the way. -/
theorem onlyQuiets_iff {planned burst : List Message} (distinct : (messagePaths burst).Nodup)
    (count : ℕ) : OnlyQuiets planned (burst.take count) (burst.drop count) ↔
      ((planned : Multiset Message) - (burst.take count : List Message)).map (·.path)
        = messagePaths (burst.drop count) := by
  constructor
  · rintro ⟨silent, others, whole, within, paths⟩
    have apart : List.Disjoint (messagePaths (burst.take count))
        (messagePaths (burst.drop count)) := by
      refine (List.nodup_append'.mp ?_).2.2
      rwa [← messagePaths_append, List.take_append_drop]
    have left : (planned : Multiset Message) - (burst.take count : List Message) = others := by
      refine Multiset.ext.mpr fun message => ?_
      have few := Multiset.count_le_of_le message within
      rw [Multiset.count_sub, whole, Multiset.count_add]
      by_cases member : message ∈ others
      · have ahead : message.path ∈ messagePaths (burst.drop count) := by
          rw [← Multiset.mem_coe, ← paths]
          exact Multiset.mem_map_of_mem _ member
        have absent : message ∉ (burst.take count : Multiset Message) := fun behind =>
          apart (List.mem_map_of_mem (Multiset.mem_coe.mp behind)) ahead
        rw [Multiset.count_eq_zero_of_notMem absent] at few ⊢
        omega
      · rw [Multiset.count_eq_zero_of_notMem member]
        omega
    rw [left, paths]
  · intro same
    refine ⟨(planned : Multiset Message) ∩ (burst.take count : List Message),
      (planned : Multiset Message) - (burst.take count : List Message), ?_,
      Multiset.inter_le_right, same⟩
    rw [Multiset.add_comm, Multiset.sub_add_inter]

/-- The account of pull-downs that fail is exact where they are all there is to write. -/
theorem exactAccount_pulling {world : World} {attempt : Attempt} {start stop : Session}
    {cause : Cause} {written unwritten : List Path} (some' : attempt.volumes ≠ [])
    (distinct : (attempt.volumes.map Prod.fst).Nodup) (same : attempt.begins.sent = start.sent)
    (failed : send world (quieting attempt.volumes) attempt.begins
      = (.error (.writeFailed cause written unwritten), stop)) :
    ExactAccount start stop attempt.wanted.writes written unwritten
      ↔ attempt.Accountable world := by
  obtain ⟨_, count, account, sent⟩ := (send_ends world _ attempt.begins).raised failed
  cases account
  have only := @onlyQuiets_iff (attempt.wanted.writes.map Write.message)
    (quieting attempt.volumes) (quieting_nodup distinct) count
  have gone : stop.sent = start.sent ++ (quieting attempt.volumes).take count := by
    rw [sent, same]
  constructor
  · rintro ⟨out, sent', paths, pending⟩
    have out' : out = (quieting attempt.volumes).take count := out_unique sent' gone
    rw [out'] at pending
    exact Or.inr ⟨cause, count, stop, failed, only.mpr pending.symm⟩
  · rintro (none | ⟨cause', count', stop', failed', quiets⟩)
    · exact absurd none some'
    · rw [failed] at failed'
      simp only [List.nil_append, Prod.mk.injEq, Except.error.injEq, Raised.writeFailed.injEq]
        at failed'
      have length := congrArg List.length failed'.1.2.1
      have took : (quieting attempt.volumes).take count'
          = (quieting attempt.volumes).take count := by
        rw [List.take_eq_take_iff]
        simpa [messagePaths] using length.symm
      have whole : (quieting attempt.volumes).take count ++ (quieting attempt.volumes).drop count'
          = (quieting attempt.volumes).take count ++ (quieting attempt.volumes).drop count := by
        rw [List.take_append_drop, ← took, List.take_append_drop]
      have left : (quieting attempt.volumes).drop count'
          = (quieting attempt.volumes).drop count := List.append_cancel_left whole
      rw [took, left] at quiets
      exact ⟨_, gone, rfl, (only.mp quiets).symm⟩

/-- The account a failed apply gives is exact, where its failed attempt is accountable. -/
theorem exactAccount_iff {world : World} {config : Config} {intent : ApplyIntent}
    {requireLinkConfirmation leaveAlone confirmed : List Path} {observed : Option Reports}
    {start stop : Session} {cause : Cause} {written unwritten : List Path}
    (failed : applyRouting world config intent requireLinkConfirmation leaveAlone confirmed observed
      start = (.error (.writeFailed cause written unwritten), stop)) :
    ∃ prepared middle,
      gather world config intent leaveAlone confirmed observed start = (.ok prepared, middle)
        ∧ (ExactAccount start stop (attempt world config intent prepared middle).wanted.writes
            written unwritten
          ↔ (attempt world config intent prepared middle).Accountable world) := by
  rcases (applyRouting_ends world config intent requireLinkConfirmation leaveAlone confirmed
    observed start).raised failed with ⟨_, plain⟩ | ⟨prepared, middle, gathered, same, failure⟩
  · exact plain.elim
  · refine ⟨prepared, middle, gathered, ?_⟩
    have distinct := attempt_volumes_nodup world config intent prepared middle
    generalize attempt world config intent prepared middle = attempt at same failure distinct ⊢
    rcases failure with ⟨none, writes, perm, account⟩ | ⟨some', account⟩
    · refine iff_of_true ?_ (Or.inl none)
      obtain ⟨_, count, account, sent⟩ := account
      cases account
      rw [same] at sent
      exact exactAccount_prefix perm sent
    · have filled : 0 < (quieting attempt.volumes).length := by
        rw [quieting, List.length_map]
        exact List.length_pos_of_ne_nil some'
      have unaccountable (pulled : ∃ later,
          send world (quieting attempt.volumes) attempt.begins = (.ok (), later)) :
          ¬ attempt.Accountable world := by
        rintro (none | ⟨_, _, _, failed', _⟩)
        · exact some' none
        · obtain ⟨later, pulled⟩ := pulled
          rw [pulled] at failed'
          cases failed'
      cases account with
      | pulling failed' => exact exactAccount_pulling some' distinct same failed'
      | sending count pulled account sent =>
          refine iff_of_false ?_ (unaccountable pulled)
          obtain ⟨returned, sent⟩ := sent
          rw [same] at sent
          simp only [List.append_assoc] at sent
          refine not_exactAccount sent ?_
          obtain ⟨_, _, account⟩ := account
          cases account
          simp only [messagePaths, List.length_map, List.length_append]
          omega
      | giving count pulled account sent =>
          refine iff_of_false ?_ (unaccountable pulled)
          obtain ⟨_, account⟩ := account
          cases account
          rw [same] at sent
          simp only [List.append_assoc] at sent
          refine not_exactAccount sent ?_
          simp only [messagePaths, List.length_map, List.length_append]
          omega

/-- An apply that is not to be quieted pulls nothing down. -/
theorem attempt_unquieted {config : Config} (loud : config.peakSafe = false) (world : World)
    (intent : ApplyIntent) (prepared : Prepared) (middle : Session) :
    (attempt world config intent prepared middle).volumes = [] := by
  have nothing (wanted : Plan) (latest : Reports) (later : Session) :
      Ends (pulledVolumes world config wanted intent latest) later
        (fun volumes _ => volumes = []) fun _ _ => True := by
    unfold pulledVolumes
    cases deviceForName config.deviceName with
    | none => exact rfl
    | some device => simp [loud]
  rcases vetted : vet world config intent prepared middle with ⟨problem | wanted, later⟩
  · simp only [attempt, vetted]
  · rcases read : pulledVolumes world config wanted intent prepared.latest later
      with ⟨problem | volumes, last⟩
    · simp only [attempt, vetted, read]
    · simp only [attempt, vetted, read]
      exact (nothing wanted prepared.latest later).returned read

/-- A world that refuses one request. -/
def refusingAt (count : ℕ) : World where
  stop _ := false
  exchange clock := if clock = count then .refused true else .done
  grant _ := .granted
  deliveries _ := []
  playback _ := some ⟨none, "", none⟩

/-- The desk of one plain stereo route. -/
def oneRoute : IniFile where
  sections := [.route "route:phones" "1/2" "3/4"]
  distinct := List.nodup_singleton _

theorem oneRoute_exactAccount :
    ∃ stop planned, ExactAccount {} stop planned [.link .playback 1]
      [.link .output 3, .mix 3 .playback 1] := by
  have failed : ∃ cause stop, applyRouting (refusingAt 5) (configOf oneRoute) .explicit [] [] []
      (some noReports) {} = (.error (.writeFailed cause [.link .playback 1]
        [.link .output 3, .mix 3 .playback 1]), stop) :=
    ⟨.refused (.link .output 3) true, (applyRouting (refusingAt 5) (configOf oneRoute) .explicit []
      [] [] (some noReports) {}).2, by decide +kernel⟩
  obtain ⟨cause, stop, failed⟩ := failed
  obtain ⟨prepared, middle, _, account⟩ := exactAccount_iff failed
  exact ⟨stop, _, account.mpr (Or.inl (attempt_unquieted (by decide +kernel) _ _ _ _))⟩

/-- The same desk, quieted for a switch. -/
def quietRoute : IniFile where
  sections := [.single "desk" "peak-safe" "true", .route "route:main" "1/2" "3/4"]
  distinct := by decide

/-- A desk that reports one volume. -/
def oneVolume : Reports := fun path =>
  if path = .volume 3 then some ⟨"f", [.real (-10)]⟩ else none

/-- The volume of output 3 is pulled down and given back, the first write of the plan is refused, and
the account says that nothing was written. -/
theorem quietRoute_unaccounted :
    ∃ cause stop, applyRouting (refusingAt 9) (configOf quietRoute) .explicit [] [] []
        (some oneVolume) {} = (.error (.writeFailed cause []
          [.link .playback 1, .link .output 3, .mix 3 .playback 1]), stop)
      ∧ messagePaths stop.sent = [.volume 3, .volume 3]
      ∧ ∀ planned, ¬ ExactAccount {} stop planned []
          [.link .playback 1, .link .output 3, .mix 3 .playback 1] := by
  have gone : messagePaths (applyRouting (refusingAt 9) (configOf quietRoute) .explicit [] [] []
      (some oneVolume) {}).2.sent = [.volume 3, .volume 3] := by decide +kernel
  have failed : (applyRouting (refusingAt 9) (configOf quietRoute) .explicit [] [] []
      (some oneVolume) {}).1 = .error (.writeFailed (.refused (.link .playback 1) true) []
        [.link .playback 1, .link .output 3, .mix 3 .playback 1]) := by decide +kernel
  refine ⟨_, _, Prod.ext failed rfl, gone, fun planned => ?_⟩
  have sent (stop : Session) : stop.sent = ({} : Session).sent ++ stop.sent := rfl
  refine not_exactAccount (sent _) ?_
  have length := congrArg List.length gone
  rw [messagePaths, List.length_map] at length
  rw [length]
  decide

end OscmixDesk
