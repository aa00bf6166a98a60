/-
**What the verdicts of repair and reconcile certify** (`verify.py`).

A repair reads back at most twice, with one repair between, and settles the matrix behind a read-back that contradicts
no link. A reconcile writes what its read-back left open, as far as it does not leave it to the device and the DSP
budgets do not take it from its plan.

* `Course`, `verifyAndRepair_ends` — the course of a repair and what its verdict certifies;
* `Unresolved`, `reconcileNow_wrote` — what a reconcile has to write, and what it wrote of it.
-/

import OscmixDesk.Proof.ReadBacks
import OscmixDesk.Proof.Selecting
import OscmixDesk.Proof.Spared

namespace OscmixDesk

open Effects Checks

/-! ### Programs that look -/

/-- What a step of the planner returned was planned. -/
theorem planned_returned {α : Type} {result : Except Fault α} {value : α} {start stop : Session}
    (run : planned result start = (.ok value, stop)) : result = .ok value ∧ start = stop := by
  have ends : Ends (planned result) start (fun value stop => result = .ok value ∧ start = stop) fun _ _ => True := by
    unfold planned
    rw [ends_lift]
    exact ⟨fun _ known => ⟨mapError_eq_ok.mp known, rfl⟩, fun _ _ => trivial⟩
  exact ends.returned run

/-- What follows a look starts where nothing was written. -/
theorem ends_looks {α β : Type} {prog : Act β} {next : β → Act α} {start : Session} {ok : α → Session → Prop}
    {failed : Raised → Session → Prop} (looks : Looks true prog)
    (onward : ∀ value middle, prog start = (.ok value, middle) → Looked start middle
      → Ends (next value) middle ok failed)
    (raised : ∀ problem stop, Looked start stop → failed problem stop) : Ends (prog >>= next) start ok failed := by
  rw [ends_bind]
  refine ends_iff.mpr ⟨fun value middle run => ?_, fun problem stop run => ?_⟩
  · exact onward value middle run ((looks start).returned run)
  · exact raised problem stop ((looks start).raised run).1

theorem looks_waitUnlessStopped (world : World) (deliveries : List (Option (List Message))) :
    Looks true (waitUnlessStopped world deliveries) := by
  induction deliveries with
  | nil => exact looks_askStop world
  | cons delivery rest ih =>
      unfold waitUnlessStopped
      refine (looks_askStop world).bind fun stopped => Looks.ite (Looks.ret _) ?_
      cases delivery with
      | none => exact looks_disconnect
      | some _ => exact ih

/-! ### The course of a repair -/

/-- A read-back of what began here, whose window is the last: behind it nothing was written and nothing read. -/
def LastRead (world : World) (config : Config) (start : Session) (result : VerifyResult) (now : Session) : Prop :=
  ∃ before after, Looked start before ∧ readBack world config before = (.ok result, after)
    ∧ Looked after now ∧ now.events = after.events

/-- A repair, on what the last read-back found. -/
def Repairs (world : World) (config : Config) (start now stop : Session) : Prop :=
  ∃ result required, LastRead world config start result now
    ∧ (applyRouting world config .repair required [] result.confirmed (some result.latest) now).2 = stop

/-- No link of the desk is contradicted. -/
def LinksAgree (config : Config) (result : VerifyResult) : Prop :=
  ∀ entry ∈ deskEntries config, entry.phase = .link → entry.path ∉ result.mismatched

/-- A matrix reapply, on what the last read-back found of the links. -/
def Reapplies (world : World) (config : Config) (start now stop : Session) : Prop :=
  ∃ result, LastRead world config start result now ∧ LinksAgree config result
    ∧ (sendMix world config result.confirmed (some result.latest) now).2 = stop

/-- At most one repair, and behind it at most one matrix reapply; else nothing is written. -/
def Course (world : World) (config : Config) (start stop : Session) : Prop :=
  ∃ first repaired last, Looked start first ∧ (repaired = first ∨ Repairs world config start first repaired)
    ∧ Looked repaired last ∧ (stop = last ∨ Reapplies world config repaired last stop)

/-- What a verdict of the repair leaves to the device. -/
def reportKept (config : Config) (result : VerifyResult) : List Path :=
  rememberedEntries config
    ++ retainedGains config result.latest (unconfirmedLinks (deskEntries config) result.confirmed)

/-- A read-back with nothing to insist on. -/
structure Confirms (config : Config) (result : VerifyResult) : Prop where
  links : LinksAgree config result
  pinned : ∀ path ∈ result.mismatched, config.policy path = .pin → path ∈ reportKept config result
  prompt : ∀ path ∈ result.unobserved, config.policy path = .pin →
    promptlyReported path (deviceForName config.deviceName) = true → path ∈ reportKept config result

/-- The last read-back, of the run or of what follows its repair, confirms the desk, and at most a matrix reapply
follows it. -/
def Certified (world : World) (config : Config) (start stop : Session) : Prop :=
  ∃ repaired result last, (repaired = start ∨ ∃ first, Repairs world config start first repaired)
    ∧ LastRead world config repaired result last ∧ (stop = last ∨ Reapplies world config repaired last stop)
    ∧ Confirms config result

section Repair

variable {world : World} {config : Config} {result : VerifyResult} {links problems : List Path}

theorem mem_linkEntries (read : linkEntries config = .ok links) (path : Path) :
    path ∈ links ↔ ∃ entry ∈ deskEntries config, entry.phase = .link ∧ entry.path = path := by
  obtain ⟨entries, desiredRead, same⟩ := bind_eq_ok.mp read
  obtain rfl := pure_eq_ok.mp same
  have desk : deskEntries config = entries := by
    unfold deskEntries
    rw [desiredRead]
    rfl
  rw [desk]
  simp [and_assoc]

/-- No wrong link is one the read-back contradicts. -/
theorem linksAgree_iff (read : linkEntries config = .ok links) :
    links.filter result.mismatched.contains = [] ↔ LinksAgree config result := by
  rw [List.filter_eq_nil_iff]
  constructor
  · intro none entry member link contradicted
    exact none _ ((mem_linkEntries read _).mpr ⟨entry, member, link, rfl⟩) (List.contains_iff_mem.mpr contradicted)
  · intro agree path member contradicted
    obtain ⟨entry, inside, link, rfl⟩ := (mem_linkEntries read _).mp member
    exact agree entry inside link (List.contains_iff_mem.mp contradicted)

/-- A report without problems insists on nothing. -/
theorem report_confirms (reported : report result config (deviceForName config.deviceName) = .ok [])
    (agree : LinksAgree config result) : Confirms config result := by
  obtain ⟨entries, desiredRead, reported⟩ := bind_eq_ok.mp reported
  obtain ⟨kept, keptRead, reported⟩ := bind_eq_ok.mp reported
  have none := pure_eq_ok.mp reported
  have desk : deskEntries config = entries := by
    unfold deskEntries
    rw [desiredRead]
    rfl
  have same : kept = reportKept config result := by
    unfold rememberedPaths at keptRead
    rw [desiredRead] at keptRead
    unfold reportKept rememberedEntries
    rw [desk]
    exact (pure_eq_ok.mp keptRead).symm
  subst same
  unfold unconfirmed at none
  obtain ⟨insisted, lost⟩ := List.append_eq_nil_iff.mp none
  refine ⟨agree, fun path member pinned => ?_, fun path member pinned prompt => ?_⟩
  · by_contra free
    have holds := List.filter_eq_nil_iff.mp insisted path member
    simp [free, show policyFor path (deviceForName config.deviceName) config.policies = .pin from pinned] at holds
  · by_contra free
    have holds := List.filter_eq_nil_iff.mp lost path member
    simp [free, prompt, show policyFor path (deviceForName config.deviceName) config.policies = .pin from pinned]
      at holds

/-- The end of a read-back: the matrix again where no link is contradicted, and the verdict. -/
theorem settleReadBack_ends (read : linkEntries config = .ok links) {start now : Session}
    (last : LastRead world config start result now) :
    Ends (settleReadBack world config links problems result) now
      (fun verdict stop => (stop = now ∨ Reapplies world config start now stop)
        ∧ (verdict = some true → problems = [] ∧ LinksAgree config result))
      fun _ stop => stop = now ∨ Reapplies world config start now stop := by
  have settled (verdict : Option Bool) (same : (if problems.isEmpty then
        some (links.filter result.mismatched.contains).isEmpty else none) = verdict) :
      verdict = some true → problems = [] ∧ LinksAgree config result := by
    rintro rfl
    split_ifs at same with none
    exact ⟨List.isEmpty_iff.mp none, (linksAgree_iff read).mp (List.isEmpty_iff.mp (Option.some.inj same))⟩
  unfold settleReadBack
  dsimp only
  by_cases again : ((links.filter result.mismatched.contains).isEmpty && !links.isEmpty) = true
  · rw [if_pos again]
    have agree := (linksAgree_iff read).mp (List.isEmpty_iff.mp (Bool.and_eq_true_iff.mp again).1)
    rw [ends_bind]
    refine (ends_self (sendMix world config result.confirmed (some result.latest)) now).imp ?_ ?_
    · intro _ stop run
      exact ⟨Or.inr ⟨result, last, agree, by rw [run]⟩, settled _ rfl⟩
    · intro _ stop run
      exact Or.inr ⟨result, last, agree, by rw [run]⟩
  · rw [if_neg again]
    exact ⟨Or.inl rfl, settled _ rfl⟩

/-- What began later began with it. -/
theorem LastRead.earlier {start middle now : Session} (looked : Looked start middle)
    (last : LastRead world config middle result now) : LastRead world config start result now := by
  obtain ⟨before, after, begun, rest⟩ := last
  exact ⟨before, after, looked.trans begun, rest⟩

/-- A question for a stop is no window. -/
theorem LastRead.asked {start now later : Session} {stopped : Bool} (last : LastRead world config start result now)
    (asked : askStop world now = (.ok stopped, later)) : LastRead world config start result later := by
  obtain ⟨before, after, begun, read, looked, same⟩ := last
  obtain ⟨-, rfl⟩ := Prod.mk.inj asked
  exact ⟨before, after, begun, read, looked.trans ⟨⟨[], (List.append_nil _).symm⟩, id⟩, same⟩

theorem Course.looked {start stop : Session} (looked : Looked start stop) : Course world config start stop :=
  ⟨stop, stop, stop, looked, Or.inl rfl, Looked.refl stop, Or.inl rfl⟩

/-- A read-back, asked for a stop and judged: the end of both attempts. -/
theorem judged_ends (read : linkEntries config = .ok links) {start now : Session}
    (last : LastRead world config start result now)
    (reported : report result config (deviceForName config.deviceName) = .ok problems) :
    Ends (settleReadBack world config links problems result >>= fun verdict => pure (verdict.getD false)) now
      (fun verdict stop => (stop = now ∨ Reapplies world config start now stop)
        ∧ (verdict = true → Confirms config result))
      fun _ stop => stop = now ∨ Reapplies world config start now stop := by
  rw [ends_bind]
  refine (settleReadBack_ends read last).imp (fun verdict stop ends => ⟨ends.1, fun certain => ?_⟩)
    fun _ _ failed => failed
  have same : verdict = some true := by
    cases verdict with
    | none => cases certain
    | some value => exact congrArg some certain
  obtain ⟨rfl, agree⟩ := ends.2 same
  exact report_confirms reported agree

/-- One attempt: a read-back between two questions for a stop, and its report. -/
theorem attempt_ends {now : Session} {ok : Bool → Session → Prop} {failed : Raised → Session → Prop}
    {rest : VerifyResult → List Path → Act Bool} (refused : ∀ stop, Looked now stop → ok false stop)
    (halted : ∀ problem stop, Looked now stop → failed problem stop)
    (judged : ∀ result problems later, LastRead world config now result later → Looked now later
      → report result config (deviceForName config.deviceName) = .ok problems
      → Ends (rest result problems) later ok failed) :
    Ends (do
      if ← askStop world then return false
      let result ← readBack world config
      if ← askStop world then return false
      let problems ← planned (report result config (deviceForName config.deviceName))
      rest result problems) now ok failed := by
  refine ends_looks (looks_askStop world) (fun stopped begun _ looked => ?_) halted
  rw [ends_ite]
  refine ⟨fun _ => refused _ looked, fun _ => ?_⟩
  refine ends_looks (looks_readBack world config) (fun result after found seen => ?_)
    fun problem stop more => halted problem stop (looked.trans more)
  have last : LastRead world config now result after := ⟨begun, after, looked, found, Looked.refl after, rfl⟩
  refine ends_looks (looks_askStop world) (fun stopped later asked more => ?_)
    fun problem stop more => halted problem stop ((looked.trans seen).trans more)
  have whole := (looked.trans seen).trans more
  rw [ends_ite]
  refine ⟨fun _ => refused _ whole, fun _ => ?_⟩
  refine ends_looks (Looks.planned (Or.inl rfl)) (fun problems here ran _ => ?_)
    fun problem stop more => halted problem stop (whole.trans more)
  obtain ⟨reported, rfl⟩ := planned_returned ran
  exact judged result problems later (last.asked asked) whole reported

/-- The course and the verdict of a repair. -/
theorem verifyAndRepair_ends (world : World) (config : Config) (start : Session) :
    Ends (verifyAndRepair world config) start
      (fun verdict stop => Course world config start stop ∧ (verdict = true → Certified world config start stop))
      fun _ stop => Course world config start stop := by
  have unsure {stop : Session} : false = true → Certified world config start stop :=
    fun certain => absurd certain Bool.false_ne_true
  unfold verifyAndRepair
  refine ends_looks (Looks.planned (Or.inl rfl)) (fun links begun ran _ => ?_)
    fun _ stop looked => Course.looked looked
  obtain ⟨read, rfl⟩ := planned_returned ran
  refine attempt_ends (fun stop looked => ⟨Course.looked looked, unsure⟩) (fun _ stop looked => Course.looked looked)
    fun result problems later last looked reported => ?_
  rw [ends_ite]
  refine ⟨fun _ => ?_, fun _ => ?_⟩
  · have course (stop : Session) (settled : stop = later ∨ Reapplies world config start later stop) :
        Course world config start stop :=
      ⟨start, start, later, Looked.refl start, Or.inl rfl, looked, settled⟩
    exact (judged_ends read last reported).imp
      (fun _ stop ends => ⟨course stop ends.1, fun certain =>
        ⟨start, result, later, Or.inl rfl, last, ends.1, ends.2 certain⟩⟩)
      fun _ stop settled => course stop settled
  -- the first read-back has problems: the one repair, then the second read-back
  refine ends_looks (looks_askStop world) (fun stopped ready asked again => ?_)
    fun _ stop more => Course.looked (looked.trans more)
  rw [ends_ite]
  refine ⟨fun _ => ⟨Course.looked (looked.trans again), unsure⟩, fun _ => ?_⟩
  have repairs {repaired : Session} (run : (applyRouting world config .repair
      (links.filter result.mismatched.contains) [] result.confirmed (some result.latest) ready).2 = repaired) :
      Repairs world config start ready repaired :=
    ⟨result, _, last.asked asked, run⟩
  have course {repaired now stop : Session} (repair : Repairs world config start ready repaired)
      (seen' : Looked repaired now) (settled : stop = now ∨ Reapplies world config repaired now stop) :
      Course world config start stop :=
    ⟨ready, repaired, now, looked.trans again, Or.inr repair, seen', settled⟩
  rw [ends_bind]
  refine (ends_self (applyRouting world config .repair (links.filter result.mismatched.contains) []
    result.confirmed (some result.latest)) ready).imp (fun _ repaired run => ?_) fun problem stop run =>
      course (repairs (by rw [run])) (Looked.refl stop) (Or.inl rfl)
  have repair : Repairs world config start ready repaired := repairs (by rw [run])
  refine ends_looks looks_tick (fun number ticked _ looked => ?_) fun _ stop looked => course repair looked (Or.inl rfl)
  refine ends_looks (looks_waitUnlessStopped world _) (fun stopped waited _ more => ?_)
    fun _ stop more => course repair (looked.trans more) (Or.inl rfl)
  have rested := looked.trans more
  rw [ends_ite]
  refine ⟨fun _ => ⟨course repair rested (Or.inl rfl), unsure⟩, fun _ => ?_⟩
  refine attempt_ends (fun stop seen => ⟨course repair (rested.trans seen) (Or.inl rfl), unsure⟩)
    (fun _ stop seen => course repair (rested.trans seen) (Or.inl rfl))
    fun result problems later last seen reported => ?_
  have last := last.earlier rested
  exact (judged_ends read last reported).imp
    (fun _ stop ends => ⟨course repair (rested.trans seen) ends.1, fun certain =>
      ⟨repaired, result, later, Or.inr ⟨ready, repair⟩, last, ends.1, ends.2 certain⟩⟩)
    fun _ stop settled => course repair (rested.trans seen) settled

end Repair

/-! ### The verdict of a reconcile -/

/-- What a reconcile has to write: a pinned register that can be reported, that its read-back left open, and that
is neither remembered nor a gain AutoSet owns. -/
structure Unresolved (config : Config) (result : VerifyResult) (path : Path) : Prop where
  pinned : config.policy path = .pin
  reportable : everReported path (deviceForName config.deviceName) = true
  left : path ∈ result.mismatched ∨ path ∈ result.unobserved
  declared : path ∉ rememberedEntries config
  unowned : path ∉ retainedGains config result.latest (writtenLinks config result.confirmed)

/-- The register is among what was written from one session to the other. -/
def Wrote (start stop : Session) (path : Path) : Prop :=
  ∃ out, stop.sent = start.sent ++ out ∧ path ∈ messagePaths out

section Reconcile

variable {world : World} {config : Config} {result : VerifyResult} {start stop : Session}

/-- A reconcile pulls no volume down. -/
theorem pulledVolumes_reconcile (world : World) (config : Config) (wanted : Plan) (latest : Reports)
    (start : Session) : pulledVolumes world config wanted .reconcile latest start = (.ok [], start) := by
  unfold pulledVolumes
  cases deviceForName config.deviceName with
  | none => rfl
  | some device =>
      dsimp only
      rw [if_pos (by simp)]
      rfl

/-- What an apply for a reconcile sends is what passes its checks. -/
theorem applyRouting_reconciles {required confirmed : List Path} {latest : Reports}
    (applied : applyRouting world config .reconcile required [] confirmed (some latest) start = (.ok (), stop)) :
    ∃ prepared middle submitted later out,
      gather world config .reconcile [] confirmed (some latest) start = (.ok prepared, middle)
        ∧ vet world config .reconcile prepared middle = (.ok submitted, later)
        ∧ stop.sent = start.sent ++ out
        ∧ ∀ path, path ∈ messagePaths out ↔ path ∈ submitted.writes.map (·.path) := by
  obtain ⟨prepared, middle, gathered, sent⟩ :=
    (applyRouting_ends world config .reconcile required [] confirmed (some latest) start).returned applied
  unfold applyRouting at applied
  obtain ⟨prepared', middle', gathered', applied⟩ := bind_returned applied
  obtain ⟨submitted, later, vetted, -⟩ := bind_returned applied
  obtain ⟨same, rfl⟩ := Prod.mk.inj (gathered.symm.trans gathered')
  obtain rfl := Except.ok.inj same
  have goes : attempt world config .reconcile prepared middle = ⟨submitted, [], later⟩ := by
    simp only [attempt, vetted, pulledVolumes_reconcile]
  refine ⟨prepared, middle, submitted, later, _, gathered, vetted, sent, fun path => ?_⟩
  rw [goes]
  have order : (Attempt.mk submitted [] later).rest.Perm submitted.writes := bucketSort_writes_perm submitted.writes
  have all : (Attempt.mk submitted [] later).messages = (Attempt.mk submitted [] later).rest.map Write.message := by
    simp [Attempt.messages, quieting, Attempt.back, givingBack]
  rw [all, messagePaths_writes]
  exact (order.map _).mem_iff

/-- What a reconcile that ends in True did: it planned and checked on its read-back, wrote what passed the checks,
and left nothing open that a retained mute protects. -/
theorem reconcileNow_true (verdict : reconcileNow world config start = (.ok true, stop)) :
    ∃ result after kept required, readBack world config start = (.ok result, after)
      ∧ rememberedPaths config (some result.latest) [] = .ok kept
      ∧ applyRouting world config .reconcile required [] result.confirmed (some result.latest)
          { after with clock := after.clock + 1 } = (.ok (), stop)
      ∧ blockedPins config kept result = [] := by
  unfold reconcileNow at verdict
  obtain ⟨result, after, read, verdict⟩ := bind_returned verdict
  obtain ⟨stopped, asked, ask, verdict⟩ := bind_returned verdict
  obtain ⟨-, rfl⟩ := Prod.mk.inj ask
  cases stopped with
  | true => cases verdict
  | false =>
      obtain ⟨kept, _, ran, verdict⟩ := bind_returned verdict
      obtain ⟨keptRead, rfl⟩ := planned_returned ran
      obtain ⟨problems, _, ran, verdict⟩ := bind_returned verdict
      obtain ⟨-, rfl⟩ := planned_returned ran
      obtain ⟨links, _, ran, verdict⟩ := bind_returned verdict
      obtain ⟨-, rfl⟩ := planned_returned ran
      obtain ⟨_, finished, applied, verdict⟩ := bind_returned verdict
      obtain ⟨certain, rfl⟩ := Prod.mk.inj verdict
      exact ⟨result, after, kept, _, read, keptRead, applied, List.isEmpty_iff.mp (Except.ok.inj certain)⟩

/-- A reconcile that ends in True wrote what it found unresolved, but for what the budgets take. -/
theorem reconcileNow_wrote (accepted : Accepted config)
    (verdict : reconcileNow world config start = (.ok true, stop)) :
    ∃ result after, readBack world config start = (.ok result, after) ∧ ∀ path, Unresolved config result path →
      (Wrote start stop path ↔ ¬ Withheld world config result { after with clock := after.clock + 1 } path) := by
  obtain ⟨declared, added, mirrors, loaded⟩ := accepted.loaded
  obtain ⟨entries, channels, globals, generated⟩ := loaded.generated
  have positive : ∀ route ∈ config.routes, ∀ channel ∈ route.source.toList, 1 ≤ channel :=
    fun route known => loaded.source_positive known
  obtain ⟨result, after, kept, required, read, keptRead, applied, clear⟩ := reconcileNow_true verdict
  obtain ⟨prepared, middle, submitted, later, out, gathered, vetted, sent, written⟩ := applyRouting_reconciles applied
  refine ⟨result, after, read, fun path unresolved => ?_⟩
  obtain ⟨unconfirmed, expected⟩ := readBack_open read unresolved.left
  have known : ∃ entry ∈ entries, entry.path = path := generated.expected_entry expected
  have unprotected : path ∉ protectedEntries config (rememberedEntries config) result.confirmed := by
    intro guarded
    have same : kept = rememberedEntries config ++ retainedGains config result.latest [] := by
      unfold rememberedPaths at keptRead
      rw [generated.desired] at keptRead
      unfold rememberedEntries
      rw [generated.deskEntries_eq]
      exact (pure_eq_ok.mp keptRead).symm
    have muted (channel : ℕ) : mutePath channel ∈ kept ↔ mutePath channel ∈ rememberedEntries config := by
      rw [same, List.mem_append]
      exact or_iff_left fun gain => (Generated.gain_apart gain).2 channel rfl
    have blocked : path ∈ blockedPins config kept result := by
      refine List.mem_filter.mpr ⟨(protectedEntries_congr positive muted).mpr guarded, ?_⟩
      rw [Bool.and_eq_true, Bool.and_eq_true, Bool.or_eq_true, List.contains_iff_mem, List.contains_iff_mem]
      exact ⟨⟨unresolved.left, decide_eq_true unresolved.pinned⟩, unresolved.reportable⟩
    rw [clear] at blocked
    exact List.not_mem_nil blocked
  have free : path ∉ spared config result := by
    unfold spared
    simp only [List.mem_append, not_or]
    exact ⟨⟨unresolved.declared, unresolved.unowned⟩, unprotected⟩
  have sent : stop.sent = start.sent ++ out := by
    rw [sent, ← ((looks_readBack world config start).returned read).sent]
    rfl
  have submits := generated.mem_submits loaded gathered vetted known unconfirmed
  rw [← written, and_iff_right free] at submits
  rw [← submits]
  constructor
  · rintro ⟨others, all, member⟩
    rwa [List.append_cancel_left (sent.symm.trans all)]
  · intro member
    exact ⟨out, sent, member⟩

end Reconcile

/-- **What the verdicts certify.** A repair runs its course, whatever ends it: at most one repair and behind it at
most one matrix reapply, and that on a read-back that contradicts no link; where it ends in True its last read-back
contradicts no link and no pinned register that is not retained, and lacks none that is promptly reported. A
reconcile that ends in True wrote every pinned register that can be reported, that is neither remembered nor a gain
of AutoSet, and that its read-back contradicts or lacks, except for the switches that the DSP budgets withhold. -/
theorem verdictsSound (world : World) {config : Config} (accepted : Accepted config) :
    (∀ start answer stop, verifyAndRepair world config start = (answer, stop) →
      Course world config start stop ∧ (answer = .ok true → Certified world config start stop))
    ∧ ∀ start stop, reconcileNow world config start = (.ok true, stop) →
      ∃ result after, readBack world config start = (.ok result, after) ∧ ∀ path, Unresolved config result path →
        (Wrote start stop path ↔ ¬ Withheld world config result { after with clock := after.clock + 1 } path) := by
  refine ⟨fun start answer stop run => ?_, fun start stop verdict => reconcileNow_wrote accepted verdict⟩
  have ends := verifyAndRepair_ends world config start
  cases answer with
  | error problem => exact ⟨ends.raised run, fun certain => by cases certain⟩
  | ok verdict => exact ⟨(ends.returned run).1, fun certain => (ends.returned run).2 (Except.ok.inj certain)⟩

/-- A pinned Crossfeed of one pair. -/
def pinnedCrossfeed : IniFile where
  sections := [.single "pin" "output.crossfeed" "pin", .single "output:1" "crossfeed" "1"]
  distinct := by decide

/-- A desk that has it off, and on for four other pairs. -/
def crowdedDesk : World :=
  { silentDesk with deliveries := fun _ => [some (⟨outputSwitch "crossfeed" 1, "i", [.int 0]⟩
      :: [3, 5, 7, 9].map fun output => ⟨outputSwitch "crossfeed" output, "i", [.int 1]⟩)] }

/-- The reconcile ends in True, finds the switch unresolved and writes nothing. -/
theorem pinnedCrossfeed_reconciles : ∃ stop, reconcileNow crowdedDesk (configOf pinnedCrossfeed) {} = (.ok true, stop)
    ∧ stop.sent = [] ∧ ∀ result after, readBack crowdedDesk (configOf pinnedCrossfeed) {} = (.ok result, after) →
      Unresolved (configOf pinnedCrossfeed) result (outputSwitch "crossfeed" 1) := by
  have evaluated : (reconcileNow crowdedDesk (configOf pinnedCrossfeed) {}).1.toOption = some true
      ∧ (reconcileNow crowdedDesk (configOf pinnedCrossfeed) {}).2.sent = [] := by decide +kernel
  have contradicted : (readBack crowdedDesk (configOf pinnedCrossfeed) {}).1.toOption.map
      (·.mismatched.contains (outputSwitch "crossfeed" 1)) = some true := by decide +kernel
  obtain ⟨certain, silent⟩ := evaluated
  rcases run : reconcileNow crowdedDesk (configOf pinnedCrossfeed) {} with ⟨problem | verdict, stop⟩
  · rw [run] at certain
    cases certain
  rw [run] at certain silent
  obtain rfl : verdict = true := Option.some.inj certain
  refine ⟨stop, rfl, silent, fun result after read => ?_⟩
  rw [read] at contradicted
  refine ⟨by decide +kernel, by decide +kernel, Or.inl ?_, by decide +kernel, fun gain => ?_⟩
  · exact List.contains_iff_mem.mp (Option.some.inj contradicted)
  · obtain ⟨own, same⟩ := mem_retainedGains gain
    simp [outputSwitch, gainPath] at same

/-- The budgets withhold the fifth pair. -/
theorem verdictsSound_pinnedCrossfeed : ∃ result after,
    readBack crowdedDesk (configOf pinnedCrossfeed) {} = (.ok result, after)
      ∧ Withheld crowdedDesk (configOf pinnedCrossfeed) result { after with clock := after.clock + 1 }
        (outputSwitch "crossfeed" 1) := by
  have accepted : Accepted (configOf pinnedCrossfeed) := accepted_configOf (by decide +kernel)
  obtain ⟨stop, verdict, silent, unresolved⟩ := pinnedCrossfeed_reconciles
  obtain ⟨result, after, read, wrote⟩ := (verdictsSound crowdedDesk accepted).2 {} stop verdict
  refine ⟨result, after, read, ?_⟩
  by_contra free
  obtain ⟨out, sent, member⟩ := (wrote _ (unresolved result after read)).mpr free
  rw [silent] at sent
  have none : out = [] := sent.symm
  rw [none] at member
  cases member

/-- The verdict is True with the pinned switch contradicted and not written. -/
theorem pinnedCrossfeed_unwritten : Accepted (configOf pinnedCrossfeed) ∧ ∃ result after stop,
    readBack crowdedDesk (configOf pinnedCrossfeed) {} = (.ok result, after)
      ∧ reconcileNow crowdedDesk (configOf pinnedCrossfeed) {} = (.ok true, stop)
      ∧ Unresolved (configOf pinnedCrossfeed) result (outputSwitch "crossfeed" 1)
      ∧ ¬ Wrote {} stop (outputSwitch "crossfeed" 1) := by
  refine ⟨accepted_configOf (by decide +kernel), ?_⟩
  obtain ⟨stop, verdict, silent, unresolved⟩ := pinnedCrossfeed_reconciles
  obtain ⟨result, after, kept, required, read, -⟩ := reconcileNow_true verdict
  refine ⟨result, after, stop, read, verdict, unresolved result after read, ?_⟩
  rintro ⟨out, sent, member⟩
  rw [silent] at sent
  have none : out = [] := sent.symm
  rw [none] at member
  cases member

end OscmixDesk
