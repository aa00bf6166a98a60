/-
**What a peak-safe switch leaves.**

On a device whose linked pairs share their settings, a peak-safe apply that nothing stops is compared with
the same plan sent as it is. A pair of outputs is all that the two can differ in: the volumes pulled down
and given back go through a link the plan itself may change (`pair_run`). They leave the same, with every
output that was pulled down at the floor up to the last write of the plan, exactly where every pair
switches the same (`sameResult_iff`).
-/

import OscmixDesk.Foundation.Twins
import OscmixDesk.Model.Contents
import OscmixDesk.Proof.GiveBack
import OscmixDesk.Proof.Release

namespace OscmixDesk

open Effects Checks

/-! ### A pair of outputs -/

/-- The side of a pair an output is. -/
def sideOf (left output : ℕ) : Option Side :=
  if output = left then some .left else if output = left + 1 then some .right else none

/-- The output of a side. -/
def Side.output (left : ℕ) : Side → ℕ
  | .left => left
  | .right => left + 1

@[simp] theorem Side.output_left (left : ℕ) : Side.left.output left = left := rfl

@[simp] theorem Side.output_right (left : ℕ) : Side.right.output left = left + 1 := rfl

/-- The volumes of a pair of outputs and its link. -/
def Contents.pair (held : Contents) (left : ℕ) : Twins Args where
  linked := held.linked .output left
  left := held (.volume left)
  right := held (.volume (left + 1))

/-- What a message does to the volumes of a pair. -/
def pairOp (left : ℕ) (message : Message) : Option (Twins.Op Args) :=
  match message.path with
  | .channel .output channel setting =>
      if setting = .flat "stereo" then
        if anchor channel = left then some (.link (message.args = [.int 1])) else none
      else if setting = .flat "volume" then (sideOf left channel).map (.set · message.args)
      else none
  | _ => none

section Pair

variable {left : ℕ} (odd : left % 2 = 1) (held : Contents)
include odd

/-- A register that is none of a pair's. -/
theorem update_pair {path : Path} (link : path ≠ .link .output left) (first : path ≠ .volume left)
    (second : path ≠ .volume (left + 1)) (args : Args) :
    Contents.pair (Function.update held path args) left = held.pair left := by
  unfold Contents.pair Contents.linked
  rw [anchor_of_odd odd, Function.update_of_ne (Ne.symm link), Function.update_of_ne (Ne.symm first),
    Function.update_of_ne (Ne.symm second)]

/-- A setting that is no volume of a pair. -/
theorem assign_pair {family : Family} {channel : ℕ} {setting : Setting} (plain : setting ≠ .flat "stereo")
    (other : family = .output → setting = .flat "volume" → channel ≠ left ∧ channel ≠ left + 1)
    (args : Args) : (held.assign family channel setting args).pair left = held.pair left := by
  have apart (number : ℕ) (same : anchor number = anchor channel) (args : Args) (held : Contents) :
      Contents.pair (Function.update held (.channel family number setting) args) left
        = held.pair left := by
    have outside (own : family = .output) (volume : setting = .flat "volume") :
        number ≠ left ∧ number ≠ left + 1 := by
      obtain ⟨first, second⟩ := other own volume
      unfold anchor at same
      split at same <;> split at same <;> omega
    refine update_pair odd held ?_ ?_ ?_ args
    · simp [plain]
    · simp only [ne_eq, Path.channel.injEq, not_and]
      exact fun own number volume => (outside own volume).1 number
    · simp only [ne_eq, Path.channel.injEq, not_and]
      exact fun own number volume => (outside own volume).2 number
  have twin : anchor (twinOf channel) = anchor channel := by
    unfold twinOf anchor
    split <;> split <;> omega
  unfold Contents.assign
  dsimp only
  by_cases linked : held.linked family channel = true
  · rw [if_pos linked, apart _ twin, apart _ rfl]
  · rw [if_neg linked, apart _ rfl]

/-- The volume of one of a pair. -/
theorem assign_volume (side : Side) (args : Args) :
    (held.assign .output (side.output left) (.flat "volume") args).pair left
      = (held.pair left).step (.set side args) := by
  have linked : held.linked .output (side.output left) = (held.pair left).linked := by
    unfold Contents.pair Contents.linked
    cases side with
    | left => rfl
    | right => rw [show Side.right.output left = left + 1 from rfl, anchor_of_succ odd, anchor_of_odd odd]
  have flag (held : Contents) (number : ℕ) (args : Args) :
      Contents.linked (Function.update held (.volume number) args) .output left
        = held.linked .output left := by
    unfold Contents.linked
    rw [Function.update_of_ne (by simp)]
  have right : twinOf left = left + 1 := if_pos odd
  have left' : twinOf (left + 1) = left := by
    unfold twinOf
    rw [if_neg (by omega), Nat.add_sub_cancel]
  have apart : left + 1 ≠ left := Nat.succ_ne_self left
  unfold Contents.assign Twins.step
  dsimp only
  rw [linked]
  cases on : (held.pair left).linked with
  | true =>
      have flagged : held.linked .output left = true := on
      rw [if_pos rfl, if_pos rfl]
      cases side <;>
        simp [Contents.pair, flag, flagged, Side.output, right, left', Function.update_apply]
  | false =>
      have flagged : held.linked .output left = false := on
      rw [if_neg Bool.false_ne_true, if_neg Bool.false_ne_true]
      cases side <;> simp [Contents.pair, flag, flagged, Side.output]

/-- The link of a pair. -/
theorem join_pair (family : Family) (channel : ℕ) (args : Args) :
    (held.join family channel args).pair left
      = if family = .output ∧ anchor channel = left then (held.pair left).step (.link (args = [.int 1]))
        else held.pair left := by
  by_cases own : family = .output ∧ anchor channel = left
  · obtain ⟨rfl, same⟩ := own
    rw [if_pos ⟨rfl, same⟩]
    unfold Contents.pair Contents.linked Contents.join Twins.step
    by_cases on : args = [.int 1]
    · simp [same, anchor_of_odd odd, anchor_of_succ odd, on]
    · simp [same, anchor_of_odd odd, on]
  · rw [if_neg own]
    have apart (number : ℕ) (near : anchor number = left) (setting : Setting)
        (plain : setting ≠ .flat "stereo") :
        held.join family channel args (.channel .output number setting)
          = held (.channel .output number setting) := by
      unfold Contents.join
      rw [if_neg (by simp [plain])]
      dsimp only
      rw [if_neg]
      rintro ⟨-, rfl, same, -⟩
      exact own ⟨rfl, same.symm.trans near⟩
    have flag : held.join family channel args (.link .output left) = held (.link .output left) := by
      unfold Contents.join
      rw [if_neg]
      · dsimp only
        rw [if_neg (by simp)]
      · intro same
        obtain ⟨rfl, same, -⟩ := Path.channel.inj same
        exact own ⟨rfl, same.symm⟩
    unfold Contents.pair Contents.linked
    rw [anchor_of_odd odd, flag, apart left (anchor_of_odd odd) _ (by simp),
      apart (left + 1) (anchor_of_succ odd) _ (by simp)]

/-- A message changes a pair as its own part of it does. -/
theorem receive_pair (message : Message) : (held.receive message).pair left
    = (pairOp left message).toList.foldl Twins.step (held.pair left) := by
  unfold Contents.receive pairOp
  rcases message with ⟨path, tags, args⟩
  cases path with
  | mix output kind source => exact update_pair odd held (by simp) (by simp) (by simp) args
  | global family option => exact update_pair odd held (by simp) (by simp) (by simp) args
  | channel family channel setting =>
      cases family with
      | playback => exact update_pair odd held (by simp) (by simp) (by simp) args
      | input =>
          by_cases link : setting = .flat "stereo"
          · exact (congrArg (Contents.pair · left) (if_pos link)).trans
              ((join_pair odd held .input channel args).trans (if_neg (by simp)))
          · exact (congrArg (Contents.pair · left) (if_neg link)).trans
              (assign_pair odd held link (fun own => by cases own) args)
      | output =>
          by_cases link : setting = .flat "stereo"
          · subst link
            refine (congrArg (Contents.pair · left) (if_pos rfl)).trans ?_
            rw [join_pair odd held .output channel args]
            by_cases own : anchor channel = left <;> simp [own]
          · refine (congrArg (Contents.pair · left) (if_neg link)).trans ?_
            dsimp only
            rw [if_neg link]
            by_cases volume : setting = .flat "volume"
            · subst volume
              rw [if_pos rfl]
              unfold sideOf
              by_cases first : channel = left
              · subst first
                rw [if_pos rfl]
                exact assign_volume odd held .left args
              · by_cases second : channel = left + 1
                · subst second
                  rw [if_neg first, if_pos rfl]
                  exact assign_volume odd held .right args
                · rw [if_neg first, if_neg second]
                  exact assign_pair odd held (by simp) (fun _ _ => ⟨first, second⟩) args
            · rw [if_neg volume]
              exact assign_pair odd held link (fun _ own => absurd own volume) args

/-- What a run leaves of a pair. -/
theorem run_pair (messages : List Message) : (held.run messages).pair left
    = (held.pair left).run (messages.filterMap (pairOp left)) :=
  foldl_view (fun held => Contents.pair held left) (receive_pair odd) messages

end Pair

/-! ### Everything but the volumes -/

/-- Whether a register is the volume of an output. -/
def isVolume : Path → Bool
  | .channel family number setting => family = .output && 1 ≤ number && setting = .flat "volume"
  | _ => false

theorem isVolume_volume {output : ℕ} (positive : 1 ≤ output) : isVolume (.volume output) = true := by
  simp [isVolume, positive]

theorem isVolume_iff {path : Path} :
    isVolume path = true ↔ ∃ output, 1 ≤ output ∧ path = .volume output := by
  cases path with
  | channel family number setting =>
      simp only [isVolume, Bool.and_eq_true, decide_eq_true_eq]
      constructor
      · rintro ⟨⟨rfl, positive⟩, rfl⟩
        exact ⟨number, positive, rfl⟩
      · rintro ⟨output, positive, same⟩
        obtain ⟨rfl, rfl, rfl⟩ := Path.channel.inj same
        exact ⟨⟨rfl, positive⟩, rfl⟩
  | mix output kind source => simp [isVolume]
  | global family option => simp [isVolume]

/-- The same but for the volumes of outputs. -/
def Alike (first second : Contents) : Prop :=
  ∀ path, isVolume path = false → first path = second path

theorem Alike.update {first second : Contents} (alike : Alike first second) (path : Path) (args : Args) :
    Alike (Function.update first path args) (Function.update second path args) := by
  intro other plain
  rw [Function.update_apply, Function.update_apply, alike other plain]

theorem Alike.receive {first second : Contents} (alike : Alike first second) (message : Message) :
    Alike (first.receive message) (second.receive message) := by
  have joined (family : Family) (channel : ℕ) (args : Args) :
      Alike (first.join family channel args) (second.join family channel args) := by
    intro path plain
    unfold Contents.join
    split
    · rfl
    · cases path with
      | mix output kind source => exact alike _ plain
      | global family option => exact alike _ plain
      | channel own number setting =>
          dsimp only
          split
          · next copied =>
              obtain ⟨-, rfl, same, -⟩ := copied
              refine alike _ ?_
              -- the odd channel of a pair is the volume of an output where the copy is one
              unfold anchor at same ⊢
              simp only [isVolume, Bool.and_eq_false_iff, decide_eq_false_iff_not] at plain ⊢
              refine plain.imp_left fun other => other.imp_right fun zero => ?_
              split at same <;> split at same <;> split <;> omega
          · exact alike _ plain
  have assigned (family : Family) (channel : ℕ) (setting : Setting) (args : Args) :
      Alike (first.assign family channel setting args) (second.assign family channel setting args) := by
    have linked : first.linked family channel = second.linked family channel := by
      unfold Contents.linked
      rw [alike _ (by simp [isVolume])]
    unfold Contents.assign
    rw [linked]
    cases second.linked family channel with
    | true => exact (alike.update _ _).update _ _
    | false => exact alike.update _ _
  unfold Contents.receive
  rcases message with ⟨path, tags, args⟩
  cases path with
  | mix output kind source => exact alike.update _ _
  | global family option => exact alike.update _ _
  | channel family channel setting =>
      cases family with
      | playback => exact alike.update _ _
      | input =>
          by_cases link : setting = .flat "stereo"
          · simpa only [if_pos link] using joined .input channel args
          · simpa only [if_neg link] using assigned .input channel setting args
      | output =>
          by_cases link : setting = .flat "stereo"
          · simpa only [if_pos link] using joined .output channel args
          · simpa only [if_neg link] using assigned .output channel setting args

/-- A volume leaves everything else. -/
theorem receive_volume (held : Contents) {message : Message} (volume : isVolume message.path = true) :
    Alike (held.receive message) held := by
  obtain ⟨output, positive, path⟩ := isVolume_iff.mp volume
  have twin : 1 ≤ twinOf output := by
    unfold twinOf
    split <;> omega
  intro other plain
  have apart {number : ℕ} (positive : 1 ≤ number) : other ≠ .volume number := by
    rintro rfl
    rw [isVolume_volume positive] at plain
    cases plain
  unfold Contents.receive
  rw [path]
  dsimp only
  rw [if_neg (by simp)]
  unfold Contents.assign
  split
  · rw [Function.update_of_ne (apart twin), Function.update_of_ne (apart positive)]
  · rw [Function.update_of_ne (apart positive)]

/-- What a run leaves of everything else is what its other messages leave. -/
theorem run_alike {first second : Contents} (alike : Alike first second) (messages : List Message) :
    Alike (first.run messages) (second.run (messages.filter fun message => !isVolume message.path)) := by
  induction messages generalizing first second with
  | nil => exact alike
  | cons message rest ih =>
      cases volume : isVolume message.path with
      | true =>
          rw [List.filter_cons_of_neg (by simp [volume])]
          refine ih fun path plain => ?_
          rw [receive_volume first volume path plain, alike path plain]
      | false =>
          rw [List.filter_cons_of_pos (by simp [volume])]
          exact ih (alike.receive message)

/-! ### A plan in the order it goes out -/

theorem pairOp_volume (left output : ℕ) (args : Args) :
    pairOp left (volumeMessage output args) = (sideOf left output).map (.set · args) := by
  simp [pairOp, volumeMessage]

/-- What a plan does to the volume of a pair of outputs, if anything. -/
def volumeSide (left : ℕ) : Path → Option Side
  | .channel .output channel setting =>
      if setting = .flat "volume" then sideOf left channel else none
  | _ => none

namespace Plan

/-- The writes of a plan in the order they go out. -/
def inOrder (plan : Plan) : List Write :=
  Phase.order.flatMap plan.burst

/-- What the plan makes of the link of a pair of outputs. -/
def linkOf (plan : Plan) (left : ℕ) : Option Bool :=
  (lastOf Write.path (.link .output left) plan.inOrder).map (·.args = [.int 1])

/-- The volumes the plan writes to a pair of outputs. -/
def volumesOf (plan : Plan) (left : ℕ) : List (Side × Args) :=
  plan.inOrder.filterMap fun write => (volumeSide left write.path).map (·, write.args)

/-- Links go out in their phase and on odd channels, volumes in later phases and as floats. -/
structure Regular (plan : Plan) : Prop where
  link : ∀ write ∈ plan.writes, ∀ channel, write.path = .link .output channel →
    write.phase = .link ∧ anchor channel = channel
  volume : ∀ write ∈ plan.writes, ∀ output, write.path = .volume output →
    (write.phase = .mix ∨ write.phase = .channel) ∧ write.tags = "f"

variable {plan : Plan}

theorem inOrder_perm (plan : Plan) : plan.inOrder.Perm plan.writes :=
  bucketSort_writes_perm plan.writes

theorem inOrder_distinct (distinct : (plan.writes.map (·.path)).Nodup) :
    (plan.inOrder.map (·.path)).Nodup :=
  ((inOrder_perm plan).map _).nodup_iff.mpr distinct

theorem inOrder_filter (keep : Write → Bool) :
    inOrder { plan with writes := plan.writes.filter keep } = plan.inOrder.filter keep := by
  unfold inOrder
  rw [List.filter_flatMap]
  congr 1
  funext phase
  unfold burst
  rw [List.filter_filter, List.filter_filter]
  exact List.filter_congr fun write _ => Bool.and_comm _ _

theorem Regular.filter (regular : plan.Regular) (keep : Write → Bool) :
    Regular { plan with writes := plan.writes.filter keep } where
  link write member := regular.link write (List.mem_of_mem_filter member)
  volume write member := regular.volume write (List.mem_of_mem_filter member)

theorem sideOf_output (left : ℕ) (side : Side) : sideOf left (side.output left) = some side := by
  cases side <;> simp [sideOf, Side.output]

theorem sideOf_some {left output : ℕ} {side : Side} (found : sideOf left output = some side) :
    output = side.output left := by
  unfold sideOf at found
  split at found
  · next first =>
      cases found
      exact first
  · split at found
    · next second =>
        cases found
        exact second
    · cases found

theorem volumeSide_some {left : ℕ} {path : Path} {side : Side}
    (found : volumeSide left path = some side) : path = .volume (side.output left) := by
  unfold volumeSide at found
  split at found
  · split at found
    · next volume => rw [volume, sideOf_some found]
    · cases found
  · cases found

theorem volumeSide_output (left : ℕ) (side : Side) :
    volumeSide left (.volume (side.output left)) = some side := by
  simp [volumeSide, sideOf_output]

/-- A write is one of a pair's link, one of a volume of the pair, or none of the pair's. -/
theorem pairOp_eq {left : ℕ} {message : Message}
    (anchored : ∀ channel, message.path = .link .output channel → anchor channel = channel) :
    pairOp left message = if message.path = .link .output left then some (.link (message.args = [.int 1]))
      else (volumeSide left message.path).map (.set · message.args) := by
  rcases message with ⟨path, tags, args⟩
  unfold pairOp volumeSide
  cases path with
  | mix output kind source => rfl
  | global family option => rfl
  | channel family channel setting =>
      cases family with
      | playback => rfl
      | input => rfl
      | output =>
          dsimp only
          by_cases link : setting = .flat "stereo"
          · subst link
            rw [if_pos rfl, anchored channel rfl]
            simp
          · rw [if_neg link, if_neg fun same => link (Path.channel.inj same).2.2]
            split <;> rfl

/-- The links of a plan go out before its volumes. -/
theorem Regular.split (regular : plan.Regular) (left : ℕ) : ∃ early late, plan.inOrder = early ++ late
    ∧ (∀ write ∈ early, write ∈ plan.writes ∧ volumeSide left write.path = none)
    ∧ ∀ write ∈ late, write ∈ plan.writes ∧ write.path ≠ .link .output left := by
  have known {phases : List Phase} {write : Write} (member : write ∈ phases.flatMap plan.burst) :
      write ∈ plan.writes ∧ write.phase ∈ phases := by
    obtain ⟨phase, among, burst⟩ := List.mem_flatMap.mp member
    obtain ⟨own, same⟩ := List.mem_filter.mp burst
    exact ⟨own, of_decide_eq_true same ▸ among⟩
  refine ⟨[Phase.playbackMuteOn, .autosetOff, .link].flatMap plan.burst,
    [Phase.mix, .channel, .autosetOn, .playbackMuteOff].flatMap plan.burst, ?_,
    fun write member => ?_, fun write member => ?_⟩
  · rw [← List.flatMap_append]
    rfl
  · obtain ⟨own, phase⟩ := known member
    refine ⟨own, ?_⟩
    cases found : volumeSide left write.path with
    | none => rfl
    | some side =>
        obtain ⟨late, -⟩ := regular.volume write own _ (volumeSide_some found)
        rcases late with late | late <;> simp [late] at phase
  · obtain ⟨own, phase⟩ := known member
    refine ⟨own, fun link => ?_⟩
    simp [(regular.link write own left link).1] at phase

/-- What a plan does to a pair: its link first, then its volumes. -/
theorem inOrder_pair (regular : plan.Regular) (distinct : (plan.writes.map (·.path)).Nodup) (left : ℕ) :
    (plan.inOrder.map Write.message).filterMap (pairOp left)
      = (plan.linkOf left).toList.map .link ++ Twins.sets (plan.volumesOf left) := by
  obtain ⟨early, late, split, front, behind⟩ := regular.split left
  have op (write : Write) (member : write ∈ plan.writes) : pairOp left write.message
      = if write.path = .link .output left then some (.link (write.args = [.int 1]))
        else (volumeSide left write.path).map (.set · write.args) :=
    pairOp_eq fun channel link => (regular.link write member channel link).2
  have links : early.filterMap (pairOp left ∘ Write.message) = (plan.linkOf left).toList.map .link := by
    have one : early.filter (·.path = .link .output left)
        = (lastOf Write.path (.link .output left) plan.inOrder).toList := by
      have none : late.filter (·.path = .link .output left) = [] :=
        List.filter_eq_nil_iff.mpr fun write member => by simpa using (behind write member).2
      have both := filter_of_distinct (k := Path.link .output left) (inOrder_distinct distinct)
      rwa [split, List.filter_append, none, List.append_nil, ← split] at both
    unfold linkOf
    rw [Option.toList_map, ← one, List.map_map, ← List.filterMap_eq_map, List.filterMap_filter]
    refine List.filterMap_congr fun write member => ?_
    rw [Function.comp_apply, op write (front write member).1, (front write member).2]
    simp
  have volumes : late.filterMap (pairOp left ∘ Write.message) = Twins.sets (plan.volumesOf left) := by
    have none : early.filterMap (fun write => (volumeSide left write.path).map (·, write.args)) = [] :=
      List.filterMap_eq_nil_iff.mpr fun write member => by rw [(front write member).2]; rfl
    unfold volumesOf Twins.sets
    rw [split, List.filterMap_append, none, List.nil_append, List.map_filterMap]
    refine List.filterMap_congr fun write member => ?_
    rw [Function.comp_apply, op write (behind write member).1, if_neg (behind write member).2,
      Option.map_map]
    rfl
  rw [List.filterMap_map, ← volumes, ← links, split, List.filterMap_append]

end Plan

/-! ### A switch between quieted outputs -/

namespace Attempt

variable (attempt : Attempt)

/-- The outputs that are pulled down. -/
def quieted : List ℕ :=
  attempt.volumes.map Prod.fst

/-- The same plan sent as it is. -/
def plain : List Message :=
  attempt.wanted.inOrder.map Write.message

/-- What the switch makes of a pair of outputs. -/
def switching (held : Contents) (left : ℕ) : Switching Args where
  start := held.pair left
  down side := attempt.quieted.contains (side.output left)
  floor := [.real levelMin]
  link := attempt.wanted.linkOf left
  writes := attempt.wanted.volumesOf left

/-- What was sent leaves every register as the plan alone does, has every planned write in it once behind
the pull-downs, and holds every output that was pulled down at the floor from before the first write of
the plan until after the last one. -/
structure SameResult (held : Contents) (sent : List Message) : Prop where
  final : held.run sent = held.run attempt.plain
  once : ∀ write ∈ attempt.wanted.writes,
    (sent.drop attempt.volumes.length).filter (·.path = write.path) = [write.message]
  quiet : ∀ count ≤ attempt.rest.length, ∀ volume ∈ attempt.volumes,
    held.run (sent.take (attempt.volumes.length + count)) (.volume volume.1) = [.real levelMin]

/-- What holds of an attempt on a device that reports what it holds. -/
structure Sound (held : Contents) : Prop where
  regular : attempt.wanted.Regular
  distinct : (attempt.wanted.writes.map (·.path)).Nodup
  ascending : ∃ last, attempt.quieted.Sublist (seq 1 last)
  reported : ∀ volume ∈ attempt.volumes, held (.volume volume.1) = [.real volume.2]

end Attempt

/-- Of ascending outputs, those of a pair are its sides. -/
theorem filterMap_sideOf {outputs : List ℕ} (ascending : outputs.Pairwise (· < ·)) (left : ℕ) :
    outputs.filterMap (sideOf left)
      = [Side.left, Side.right].filter fun side => outputs.contains (side.output left) := by
  induction outputs with
  | nil => rfl
  | cons output rest ih =>
      obtain ⟨ahead, later⟩ := List.pairwise_cons.mp ascending
      have passed {number : ℕ} (low : number ≤ output) : number ∉ rest := fun member =>
        absurd (ahead number member) (Nat.not_lt.mpr low)
      rw [List.filterMap_cons, ih later]
      by_cases first : output = left
      · subst first
        have gone := passed (le_refl output)
        by_cases partner : output + 1 ∈ rest <;> simp [sideOf, gone, partner]
      · by_cases second : output = left + 1
        · subst second
          simp [sideOf, passed (le_refl (left + 1)), passed (Nat.le_succ left)]
        · by_cases one : left ∈ rest <;> by_cases partner : left + 1 ∈ rest <;>
            simp [sideOf, first, second, Ne.symm first, Ne.symm second, one, partner]

namespace Attempt.Sound

variable {attempt : Attempt} {held : Contents} (sound : attempt.Sound held)
include sound

theorem ascends : attempt.quieted.Pairwise (· < ·) := by
  obtain ⟨last, within⟩ := sound.ascending
  exact List.Pairwise.sublist within List.pairwise_lt_range'

theorem positive {output : ℕ} (member : output ∈ attempt.quieted) : 1 ≤ output := by
  obtain ⟨last, within⟩ := sound.ascending
  exact (List.mem_range'_1.mp (within.mem member)).1

theorem downs_eq (left : ℕ) : attempt.quieted.filterMap (sideOf left) = (attempt.switching held left).downs :=
  filterMap_sideOf sound.ascends left

/-- Volumes written to the outputs that are pulled down, as what they do to a pair. -/
theorem volumes_pair {args : ℕ × ℚ → Args} {left : ℕ} {value : Side → Args}
    (same : ∀ side, ∀ volume ∈ attempt.volumes, volume.1 = side.output left → args volume = value side) :
    (attempt.volumes.map fun volume => volumeMessage volume.1 (args volume)).filterMap (pairOp left)
      = Twins.sets ((attempt.switching held left).each value) := by
  unfold Switching.each Twins.sets
  rw [← sound.downs_eq left, quieted, List.filterMap_map, List.filterMap_map, List.map_map,
    List.map_filterMap]
  refine List.filterMap_congr fun volume member => ?_
  rw [Function.comp_apply, Function.comp_apply, pairOp_volume]
  cases found : sideOf left volume.1 with
  | none => rfl
  | some side =>
      have own := same side volume member (Plan.sideOf_some found)
      exact congrArg (fun args => some (Twins.Op.set side args)) own

/-- The value planned for a side is the one the plan declares for its output. -/
theorem planned_eq (left : ℕ) (side : Side) : (attempt.switching held left).planned side
    = declaredVolumes attempt.wanted (.volume (side.output left)) := by
  have last : lastOf Prod.fst side (attempt.wanted.volumesOf left)
      = (lastOf Write.path (.volume (side.output left)) attempt.wanted.inOrder).bind
        fun write => (volumeSide left write.path).map (·, write.args) := by
    refine lastOf_filterMap (fun write path => ?_) fun write made other found => ?_
    · refine ⟨(side, write.args), ?_, rfl⟩
      rw [path, Plan.volumeSide_output]
      rfl
    · obtain ⟨own, volume, rfl⟩ := Option.map_eq_some_iff.mp found
      rintro rfl
      exact other (Plan.volumeSide_some volume)
  have perm : lastOf Write.path (.volume (side.output left)) attempt.wanted.inOrder
      = lastOf Write.path (.volume (side.output left)) attempt.wanted.writes :=
    lastOf_perm (Plan.inOrder_distinct sound.distinct) (Plan.inOrder_perm _)
  show (lastOf Prod.fst side (attempt.wanted.volumesOf left)).map Prod.snd
    = (lastOf Write.path (.volume (side.output left)) attempt.wanted.writes).map (·.args)
  rw [last, perm]
  cases found : lastOf Write.path (.volume (side.output left)) attempt.wanted.writes with
  | none => rfl
  | some write =>
      rw [Option.bind_some, key_lastOf found, Plan.volumeSide_output]
      rfl

end Attempt.Sound

namespace Attempt

variable (attempt : Attempt)

/-- Whether a write is no volume of an output that is pulled down. -/
def spares (write : Write) : Bool :=
  !(attempt.volumes.map fun volume => Path.volume volume.1).contains write.path

theorem between_eq :
    attempt.between = { attempt.wanted with writes := attempt.wanted.writes.filter attempt.spares } := by
  unfold between
  by_cases none : attempt.volumes.isEmpty = true
  · rw [if_pos none]
    have all : attempt.wanted.writes.filter attempt.spares = attempt.wanted.writes := by
      refine List.filter_eq_self.mpr fun write _ => ?_
      unfold spares
      rw [List.isEmpty_iff.mp none]
      rfl
    rw [all]
  · rw [if_neg none]
    rfl

theorem rest_eq : attempt.rest = attempt.wanted.inOrder.filter attempt.spares := by
  show attempt.between.inOrder = _
  rw [between_eq, Plan.inOrder_filter]

theorem spares_iff (write : Write) :
    attempt.spares write = true ↔ ∀ output ∈ attempt.quieted, write.path ≠ .volume output := by
  unfold spares quieted
  rw [Bool.not_eq_true', List.contains_eq_mem, decide_eq_false_iff_not]
  simp only [List.mem_map, forall_exists_index, and_imp, not_exists, not_and]
  constructor
  · rintro apart _ volume member rfl same
    exact apart volume member same.symm
  · intro apart volume member same
    exact apart _ volume member rfl same.symm

variable {attempt} {held : Contents}

/-- What the rest of the plan does to a pair. -/
theorem Sound.rest_pair (sound : attempt.Sound held) (left : ℕ) :
    (attempt.rest.map Write.message).filterMap (pairOp left)
      = (attempt.switching held left).links ++ Twins.sets (attempt.switching held left).others := by
  have regular := attempt.between_eq ▸ sound.regular.filter attempt.spares
  have distinct : (attempt.between.writes.map (·.path)).Nodup := by
    rw [between_eq]
    exact sound.distinct.sublist (List.filter_sublist.map _)
  have links : attempt.between.linkOf left = attempt.wanted.linkOf left := by
    unfold Plan.linkOf
    rw [between_eq, Plan.inOrder_filter, lastOf_filter]
    intro write _ link
    refine (attempt.spares_iff write).mpr fun output _ => ?_
    rw [link]
    simp
  have volumes : attempt.between.volumesOf left = (attempt.switching held left).others := by
    unfold Plan.volumesOf
    rw [between_eq, Plan.inOrder_filter, List.filterMap_filter]
    show _ = List.filter _ (attempt.wanted.volumesOf left)
    unfold Plan.volumesOf
    rw [List.filter_filterMap]
    refine List.filterMap_congr fun write _ => ?_
    cases found : volumeSide left write.path with
    | none => split <;> rfl
    | some side =>
        have spared : attempt.spares write = true ↔ side.output left ∉ attempt.quieted := by
          rw [spares_iff, Plan.volumeSide_some found]
          constructor
          · intro apart down
            exact apart _ down rfl
          · rintro up _ down same
            exact up ((Path.channel.inj same).2.1 ▸ down)
        by_cases down : side.output left ∈ attempt.quieted
        · rw [if_neg fun spares => spared.mp spares down]
          simp [switching, Option.filter, down]
        · rw [if_pos (spared.mpr down)]
          simp [switching, Option.filter, down]
  have pair := Plan.inOrder_pair regular distinct left
  rw [links, volumes] at pair
  exact pair

theorem Sound.quieting_pair (sound : attempt.Sound held) (left : ℕ) :
    (quieting attempt.volumes).filterMap (pairOp left)
      = Twins.sets (attempt.switching held left).pulled :=
  sound.volumes_pair fun _ _ _ _ => rfl

theorem Sound.back_pair (sound : attempt.Sound held) (left : ℕ) :
    attempt.back.filterMap (pairOp left) = Twins.sets (attempt.switching held left).backs := by
  refine sound.volumes_pair fun side volume member own => ?_
  have start : held (.volume (side.output left)) = (held.pair left).get side := by cases side <;> rfl
  show _ = ((attempt.switching held left).planned side).getD ((held.pair left).get side)
  rw [sound.planned_eq, ← start, ← own, sound.reported volume member]

/-- What the messages of a peak-safe switch leave of a pair. -/
theorem Sound.messages_pair (sound : attempt.Sound held) {left : ℕ} (odd : left % 2 = 1) :
    (held.run attempt.messages).pair left = (attempt.switching held left).quietly := by
  rw [run_pair odd, messages, List.filterMap_append, List.filterMap_append, sound.quieting_pair,
    sound.rest_pair, sound.back_pair]
  rfl

/-- What the plan alone leaves of a pair. -/
theorem Sound.plain_pair (sound : attempt.Sound held) {left : ℕ} (odd : left % 2 = 1) :
    (held.run attempt.plain).pair left = (attempt.switching held left).plainly := by
  rw [run_pair odd, plain, Plan.inOrder_pair sound.regular sound.distinct]
  rfl

/-- Every output of a device is a side of one pair. -/
theorem output_side {output : ℕ} (positive : 1 ≤ output) :
    ∃ left side, left % 2 = 1 ∧ output = Side.output left side := by
  by_cases odd : output % 2 = 1
  · exact ⟨output, .left, odd, rfl⟩
  · refine ⟨output - 1, .right, by omega, ?_⟩
    show output = output - 1 + 1
    omega

theorem pair_get (held : Contents) (left : ℕ) (side : Side) :
    (held.pair left).get side = held (.volume (side.output left)) := by
  cases side <;> rfl

/-- The two leave the same but for the volumes. -/
theorem Sound.others_same (sound : attempt.Sound held) :
    Alike (held.run attempt.messages) (held.run attempt.plain) := by
  have volumes (args : ℕ × ℚ → Args) :
      (attempt.volumes.map fun volume => volumeMessage volume.1 (args volume)).filter
        (fun message => !isVolume message.path) = [] := by
    refine List.filter_eq_nil_iff.mpr fun message member => ?_
    obtain ⟨volume, among, rfl⟩ := List.mem_map.mp member
    have positive := sound.positive (List.mem_map_of_mem (f := Prod.fst) among)
    simp [volumeMessage, isVolume_volume positive]
  have rest : (attempt.rest.map Write.message).filter (fun message => !isVolume message.path)
      = attempt.plain.filter fun message => !isVolume message.path := by
    unfold plain
    rw [List.filter_map, List.filter_map, rest_eq, List.filter_filter]
    congr 1
    refine List.filter_congr fun write _ => ?_
    cases volume : isVolume write.path with
    | true => simp [Write.message, volume]
    | false =>
        have spared : attempt.spares write = true := (attempt.spares_iff write).mpr fun output member same => by
          rw [same, isVolume_volume (sound.positive member)] at volume
          cases volume
        rw [spared, Bool.and_true]
  intro path plain
  have one := run_alike (fun _ _ => rfl : Alike held held) attempt.messages path plain
  have two := run_alike (fun _ _ => rfl : Alike held held) attempt.plain path plain
  rw [one, two, messages, List.filter_append, List.filter_append, rest]
  have quieting := volumes fun _ => [.real levelMin]
  have back := volumes fun volume =>
    (declaredVolumes attempt.wanted (.volume volume.1)).getD [.real volume.2]
  rw [show (OscmixDesk.quieting attempt.volumes).filter _ = [] from quieting,
    show attempt.back.filter _ = [] from back, List.append_nil, List.nil_append]

/-- The two leave the same where they leave the same of every pair. -/
theorem Sound.final_iff (sound : attempt.Sound held) :
    held.run attempt.messages = held.run attempt.plain ↔ ∀ left, left % 2 = 1 →
      (attempt.switching held left).quietly = (attempt.switching held left).plainly := by
  constructor
  · intro same left odd
    rw [← sound.messages_pair odd, ← sound.plain_pair odd, same]
  · intro same
    funext path
    cases volume : isVolume path with
    | false => exact sound.others_same path volume
    | true =>
        obtain ⟨output, positive, rfl⟩ := isVolume_iff.mp volume
        obtain ⟨left, side, odd, rfl⟩ := output_side positive
        rw [← pair_get (held.run attempt.messages), ← pair_get (held.run attempt.plain),
          sound.messages_pair odd, sound.plain_pair odd, same left odd]

/-- The writes behind the pull-downs have every planned write in them once. -/
theorem Sound.once (sound : attempt.Sound held) {write : Write} (member : write ∈ attempt.wanted.writes) :
    (attempt.rest.map Write.message ++ attempt.back).filter (·.path = write.path) = [write.message] := by
  have own : lastOf Write.path write.path attempt.wanted.writes = some write :=
    lastOf_of_distinct sound.distinct member
  have kept : (attempt.rest.map Write.message).filter (·.path = write.path)
      = if attempt.spares write then [write.message] else [] := by
    have one : attempt.wanted.inOrder.filter (·.path = write.path) = [write] := by
      rw [filter_of_distinct (Plan.inOrder_distinct sound.distinct),
        lastOf_perm (Plan.inOrder_distinct sound.distinct) (Plan.inOrder_perm _)]
      exact congrArg Option.toList own
    rw [List.filter_map, rest_eq]
    show ((attempt.wanted.inOrder.filter attempt.spares).filter (·.path = write.path)).map _ = _
    rw [List.filter_comm, one]
    cases spared : attempt.spares write <;> simp [spared]
  rw [List.filter_append, kept]
  by_cases spared : attempt.spares write = true
  · have back : attempt.back.filter (·.path = write.path) = [] := by
      refine List.filter_eq_nil_iff.mpr fun message among => ?_
      obtain ⟨volume, quieted, rfl⟩ := List.mem_map.mp among
      have apart := (attempt.spares_iff write).mp spared volume.1 (List.mem_map_of_mem quieted)
      exact fun same => apart (of_decide_eq_true same).symm
    rw [if_pos spared, back, List.append_nil]
  · rw [if_neg spared, List.nil_append]
    -- the volume of an output that was pulled down goes out with the give-back
    obtain ⟨output, quieted, path⟩ : ∃ output ∈ attempt.quieted, write.path = .volume output := by
      simpa using (attempt.spares_iff write).not.mp spared
    obtain ⟨volume, among, rfl⟩ := List.mem_map.mp quieted
    have distinct : (attempt.volumes.map Prod.fst).Nodup := sound.ascends.imp fun low => Nat.ne_of_lt low
    have paths : (attempt.back.map Message.path).Nodup := by
      have same : attempt.back.map Message.path = messagePaths (quieting attempt.volumes) := by
        unfold back givingBack messagePaths quieting
        rw [List.map_map, List.map_map]
        rfl
      rw [same]
      exact quieting_nodup distinct
    have last : lastOf Message.path (.volume volume.1) attempt.back = some (attempt.giveBack volume) :=
      find_volume distinct among
    have declared : declaredVolumes attempt.wanted (.volume volume.1) = some write.args := by
      rw [path] at own
      exact congrArg (Option.map (·.args)) own
    rw [path, filter_of_distinct paths, last]
    refine congrArg (fun message => [message]) ?_
    unfold giveBack
    rw [declared]
    show (⟨.volume volume.1, "f", write.args⟩ : Message) = ⟨write.path, write.tags, write.args⟩
    rw [path, (sound.regular.volume write member _ path).2]

/-- What was pulled down stays down where it does in every pair. -/
theorem Sound.quiet_iff (sound : attempt.Sound held) :
    (∀ count, ∀ volume ∈ attempt.volumes,
      held.run (quieting attempt.volumes ++ (attempt.rest.map Write.message).take count)
        (.volume volume.1) = [.real levelMin]) ↔ ∀ left, left % 2 = 1 →
          (attempt.switching held left).Held := by
  have pairwise (now : Contents) : (∀ volume ∈ attempt.volumes, now (.volume volume.1) = [.real levelMin])
      ↔ ∀ left, left % 2 = 1 → (attempt.switching held left).Quiet (now.pair left) := by
    constructor
    · intro all left _ side down
      obtain ⟨volume, member, own⟩ := List.mem_map.mp (List.contains_iff_mem.mp down)
      rw [pair_get, ← own]
      exact all volume member
    · intro all volume member
      have quieted : volume.1 ∈ attempt.quieted := List.mem_map_of_mem member
      obtain ⟨left, side, odd, own⟩ := output_side (sound.positive quieted)
      rw [own, ← pair_get now]
      exact all left odd side (List.contains_iff_mem.mpr (own ▸ quieted))
  have throughout (left : ℕ) (odd : left % 2 = 1) :
      (∀ count, (attempt.switching held left).Quiet
        ((held.run (quieting attempt.volumes ++ (attempt.rest.map Write.message).take count)).pair left))
        ↔ (attempt.switching held left).Held := by
    have view : Throughout Contents.receive
        (fun now => (attempt.switching held left).Quiet (Contents.pair now left))
        (held.run (quieting attempt.volumes)) (attempt.rest.map Write.message) ↔ _ :=
      throughout_view (Contents.pair · left) _ (receive_pair odd) _
    rw [throughout_iff_take, sound.rest_pair, run_pair odd, sound.quieting_pair] at view
    refine Iff.trans ?_ (view.trans Switching.held_iff)
    refine forall_congr' fun count => ?_
    unfold Contents.run
    rw [List.foldl_append]
  simp only [pairwise]
  constructor
  · intro all left odd
    exact (throughout left odd).mp fun count => all count left odd
  · intro all count left odd
    exact (throughout left odd).mpr (all left odd) count

/-- Without an output to pull down, an apply sends its plan as it is. -/
theorem messages_unquieted (none : attempt.volumes = []) : attempt.messages = attempt.plain := by
  have all : attempt.wanted.inOrder.filter attempt.spares = attempt.wanted.inOrder := by
    refine List.filter_eq_self.mpr fun write _ => (attempt.spares_iff write).mpr ?_
    unfold quieted
    rw [none]
    exact fun _ member => absurd member List.not_mem_nil
  unfold messages back plain quieting givingBack
  rw [rest_eq, all, none]
  exact List.append_nil _

end Attempt

/-! ### What an apply sets out to do -/

/-- The plan an apply gathers is prepared from the reports it is given, or from those it read. -/
theorem gathered_prepares {world : World} {config : Config} {intent : ApplyIntent}
    {leaveAlone confirmed : List Path} {observed : Option Reports} {start middle : Session}
    {prepared : Prepared} (gathered : gather world config intent leaveAlone confirmed observed start
      = (.ok prepared, middle)) :
    ∃ latest, preparePlan config intent leaveAlone confirmed latest = .ok prepared
      ∧ ∀ reports, observed = some reports → latest = reports ∧ middle = start := by
  have ends : Ends (gather world config intent leaveAlone confirmed observed) start
      (fun prepared middle => ∃ latest,
        preparePlan config intent leaveAlone confirmed latest = .ok prepared
          ∧ ∀ reports, observed = some reports → latest = reports ∧ middle = start)
      fun _ _ => True := by
    unfold gather planned
    rw [ends_bind, ends_lift]
    refine ⟨fun _ _ => ?_, fun _ _ => trivial⟩
    cases observed with
    | none =>
        dsimp only
        rw [ends_bind]
        refine (ends_self _ start).imp (fun latest later _ => ?_) fun _ _ _ => trivial
        rw [ends_lift]
        exact ⟨fun prepared known => ⟨latest, mapError_eq_ok.mp known, fun _ none => by cases none⟩,
          fun _ _ => trivial⟩
    | some reports =>
        dsimp only
        rw [ends_bind, ends_pure, ends_lift]
        refine ⟨fun prepared known => ⟨reports, mapError_eq_ok.mp known, fun _ same => ?_⟩,
          fun _ _ => trivial⟩
        exact ⟨Option.some.inj same, rfl⟩
  exact ends.returned gathered

/-- What passes the checks is what the DSP limits leave of the plan. -/
theorem vetted_limits {world : World} {config : Config} {intent : ApplyIntent} {prepared : Prepared}
    {submitted : Plan} {start stop : Session}
    (vetted : vet world config intent prepared start = (.ok submitted, stop)) :
    withinDspLimits world config prepared.wanted prepared.latest intent start = (.ok submitted, stop) := by
  obtain ⟨wanted, retained, confirmed, latest⟩ := prepared
  have limited : Ends (withinDspLimits world config wanted latest intent) start
      (fun plan last => withinDspLimits world config wanted latest intent start = (.ok plan, last))
      fun _ _ => True :=
    (ends_self _ start).imp (fun _ _ run => run) fun _ _ _ => trivial
  have ends : Ends (vet world config intent ⟨wanted, retained, confirmed, latest⟩) start
      (fun plan last => withinDspLimits world config wanted latest intent start = (.ok plan, last))
      fun _ _ => True := by
    unfold vet planned
    dsimp only
    rw [ends_bind, ends_lift]
    refine ⟨fun problem _ => ?_, fun _ _ => trivial⟩
    cases problem with
    | some problem => trivial
    | none =>
        show Ends (if wanted.autosetOff.isEmpty = true then _ else _) start _ _
        rw [ends_ite]
        refine ⟨fun _ => ?_, fun _ => limited⟩
        unfold refuseGains planned
        rw [ends_bind, ends_bind, ends_lift]
        refine ⟨fun problem _ => ?_, fun _ _ => trivial⟩
        cases problem with
        | some problem => trivial
        | none => exact limited
  exact ends.returned vetted

/-- The DSP limits take writes out of a plan and change nothing else of it. -/
theorem limited_writes {world : World} {config : Config} {wanted submitted : Plan}
    {latest : Reports} {intent : ApplyIntent} {start stop : Session}
    (limited : withinDspLimits world config wanted latest intent start = (.ok submitted, stop)) :
    ∃ keep : Write → Bool, submitted.writes = wanted.writes.filter keep := by
  have ends : Ends (withinDspLimits world config wanted latest intent) start
      (fun plan _ => ∃ keep : Write → Bool, plan.writes = wanted.writes.filter keep)
      fun _ _ => True := by
    unfold withinDspLimits
    rw [ends_bind]
    refine (ends_self _ start).imp (fun problem middle _ => ?_) fun _ _ _ => trivial
    cases problem with
    | none => exact ⟨fun _ => true, (List.filter_eq_self.mpr fun _ _ => rfl).symm⟩
    | some problem =>
        show Ends (if intent = .explicit then _ else _) middle _ _
        rw [ends_ite]
        refine ⟨fun _ => trivial, fun _ => ?_⟩
        rw [ends_bind]
        refine (ends_self _ middle).imp (fun held later _ => ?_) fun _ _ _ => trivial
        exact ⟨fun write => !held.contains write.path, rfl⟩
  exact ends.returned limited

/-- The plan of an attempt is what the checks leave of the plan that was prepared. -/
theorem attempt_writes (world : World) (config : Config) (intent : ApplyIntent) (prepared : Prepared)
    (middle : Session) : ∃ keep : Write → Bool,
      (attempt world config intent prepared middle).wanted.writes = prepared.wanted.writes.filter keep := by
  rcases vetted : vet world config intent prepared middle with ⟨problem | wanted, later⟩
  · have known : attempt world config intent prepared middle = ⟨prepared.wanted, [], later⟩ := by
      simp only [attempt, vetted]
    rw [known]
    exact ⟨fun _ => true, (List.filter_eq_self.mpr fun _ _ => rfl).symm⟩
  · have own : (attempt world config intent prepared middle).wanted = wanted := by
      simp only [attempt, vetted]
      split <;> rfl
    rw [own]
    exact limited_writes (vetted_limits vetted)

/-- The pull-downs are of outputs of the device, in ascending order. -/
theorem changedOutputs_sublist {name : String} {device : Device} (paths : List Path)
    (modelled : deviceForName name = some device) :
    ∃ last, (changedOutputs paths device).Sublist (seq 1 last) := by
  obtain ⟨half, _, counted⟩ := (deviceForName_tabled modelled).counted
  refine ⟨2 * half, ?_⟩
  unfold changedOutputs
  rw [show device.channelsFor "output" = seq 1 (2 * half) from counted .output]
  by_cases every : paths.any changesAll = true
  · rw [if_pos every]
  · rw [if_neg every]
    exact List.filter_sublist

theorem reportedVolumes_sublist (outputs : List ℕ) (observed : Reports) :
    ((reportedVolumes outputs observed).map Prod.fst).Sublist outputs := by
  induction outputs with
  | nil => exact List.Sublist.refl _
  | cons output rest ih =>
      unfold reportedVolumes at ih ⊢
      rw [List.filterMap_cons]
      cases reportedVolume (observed (.volume output)) with
      | none => exact ih.cons _
      | some volume => exact ih.cons_cons _

theorem pulledVolumes_sublist (world : World) (config : Config) (wanted : Plan)
    (intent : ApplyIntent) (latest : Reports) (start : Session) :
    Ends (pulledVolumes world config wanted intent latest) start
      (fun volumes _ => ∃ last, (volumes.map Prod.fst).Sublist (seq 1 last)) fun _ _ => True := by
  unfold pulledVolumes
  cases modelled : deviceForName config.deviceName with
  | none => exact ⟨0, List.nil_sublist _⟩
  | some device =>
      show Ends (if _ then _ else _) start _ _
      rw [ends_ite]
      refine ⟨fun _ => ⟨0, List.nil_sublist _⟩, fun _ => ?_⟩
      rw [ends_bind]
      refine (ends_self _ start).imp (fun read _ _ => ?_) fun _ _ _ => trivial
      obtain ⟨last, within⟩ := changedOutputs_sublist (wanted.writes.map (·.path)) modelled
      exact ⟨last, (reportedVolumes_sublist _ _).trans within⟩

theorem attempt_volumes_sublist (world : World) (config : Config) (intent : ApplyIntent)
    (prepared : Prepared) (middle : Session) : ∃ last,
      ((attempt world config intent prepared middle).volumes.map Prod.fst).Sublist (seq 1 last) := by
  rcases vetted : vet world config intent prepared middle with ⟨problem | wanted, later⟩
  · have known : attempt world config intent prepared middle = ⟨prepared.wanted, [], later⟩ := by
      simp only [attempt, vetted]
    rw [known]
    exact ⟨0, List.nil_sublist _⟩
  · have within := pulledVolumes_sublist world config wanted intent prepared.latest later
    rcases read : pulledVolumes world config wanted intent prepared.latest later
      with ⟨problem | volumes, last⟩
    · have known : attempt world config intent prepared middle = ⟨wanted, [], last⟩ := by
        simp only [attempt, vetted, read]
      rw [known]
      exact ⟨0, List.nil_sublist _⟩
    · have known : attempt world config intent prepared middle = ⟨wanted, volumes, last⟩ := by
        simp only [attempt, vetted, read]
      rw [known]
      exact within.returned read

/-! ### The plans of an accepted configuration -/

/-- The row of the volumes is a quantity, sent as a float. -/
theorem volume_row {name : String} {device : Device} (modelled : deviceForName name = some device)
    {row : Register} (member : row ∈ device.registers)
    (template : row.template = .channel .output (.flat "volume")) :
    row.domain = some .number ∧ row.startsWith 'f' = true := by
  have table : ∀ row ∈ device.registers, row.template = .channel .output (.flat "volume") →
      row.domain = some .number ∧ row.startsWith 'f' = true := by
    rcases deviceForName_cases modelled with rfl | rfl <;> decide +kernel
  exact table row member template

/-- The volume of an output is set by a route or by the section of the output. -/
theorem Generated.volume_entry {config : Config} {entries channels globals : List Entry}
    (generated : Generated config entries channels globals) {entry : Entry} (member : entry ∈ entries)
    {output : ℕ} (volume : entry.path = .volume output) :
    (entry.phase = .mix ∨ entry.phase = .channel) ∧ entry.tags = "f" := by
  rcases generated.mem_iff.mp member with routed | silent | setting | global
  · obtain ⟨route, known, ⟨message, link, rfl⟩ | ⟨message, mix, rfl⟩⟩ :=
      (mem_producedEntries _).mp (mem_produced _ routed)
    · rcases mem_linkMessages.mp link with rfl | rfl <;> simp [Message.entry] at volume
    · rcases List.mem_append.mp mix with cell | fader
      · obtain ⟨out, -, level, pan, rfl⟩ := mem_cellMessages cell
        cases volume
      · obtain ⟨own, -, out, -, rfl⟩ := mem_volumeMessages.mp fader
        exact ⟨Or.inl rfl, rfl⟩
  · obtain ⟨⟨_, _, _, mix⟩, -⟩ := silent_shape silent
    cases mix.symm.trans volume
  · obtain ⟨own, -, device, modelled, form, row, found, read, encoded⟩ :=
      exists_left generated.channels setting
    obtain ⟨known, template, -, -⟩ := optionRegister_eq_some found
    obtain ⟨family, -, option⟩ := Path.channel.inj (form.path.symm.trans volume)
    rw [family, option] at template
    obtain ⟨number, float⟩ := volume_row modelled known template
    cases encoded with
    | named name _ held =>
        unfold ReadFor at read
        rw [number] at read
        obtain ⟨_, real, -⟩ := read
        cases held.symm.trans real
    | quantity _ _ _ tags _ phase => exact ⟨Or.inr phase, tags⟩
    | whole _ _ integral => exact absurd float integral
  · obtain ⟨own, -, device, -, form, -⟩ := exists_left generated.globals global
    obtain ⟨_, _, shape⟩ := globalPath_shape own
    cases shape.symm.trans (form.path.symm.trans volume)

/-- The plans of an accepted configuration write links first, and volumes as floats behind them. -/
theorem Planned.regular {config : Config} (accepted : Accepted config) {intent : ApplyIntent}
    {leaveAlone confirmed skip : List Path} {observed : Option Reports} {entries : List Entry}
    {result : Plan}
    (planned : Planned config intent leaveAlone confirmed observed entries skip result) :
    result.Regular := by
  obtain ⟨declared, added, mirrors, loaded⟩ := accepted.loaded
  obtain ⟨others, channels, globals, generated⟩ := loaded.generated
  obtain rfl : others = entries := Except.ok.inj (generated.desired.symm.trans planned.desired)
  have linked {entry : Entry} (member : entry ∈ others) {channel : ℕ}
      (link : entry.path = .link .output channel) : entry.phase = .link ∧ anchor channel = channel := by
    refine ⟨generated.link_entry loaded member link, ?_⟩
    obtain ⟨route, -, message, among, rfl⟩ := generated.link_source loaded member link
    rcases mem_linkMessages.mp among with rfl | rfl
    · have family := (Path.channel.inj link).1
      cases kind : route.kind <;> rw [kind] at family <;> cases family
    · have same : anchor route.output.first = channel := (Path.channel.inj link).2.1
      rw [← same, anchor_anchor]
  constructor
  · intro write member channel link
    rcases planned.mem_writes.mp member with selected | ⟨off, selected, release, rfl⟩
    · obtain ⟨entry, known, -, rfl⟩ := Planned.mem_selection.mp selected
      exact linked known link
    · obtain ⟨entry, known, -, rfl⟩ := Planned.mem_selection.mp selected
      cases (linked known link).1.symm.trans release
  · intro write member output volume
    rcases planned.mem_writes.mp member with selected | ⟨off, selected, release, rfl⟩
    · obtain ⟨entry, known, -, rfl⟩ := Planned.mem_selection.mp selected
      exact generated.volume_entry known volume
    · obtain ⟨entry, known, -, rfl⟩ := Planned.mem_selection.mp selected
      rcases (generated.volume_entry known volume).1 with phase | phase <;>
        cases phase.symm.trans release

/-- The attempt of an accepted configuration is sound on a device that reports what it holds. -/
theorem attempt_sound {world : World} {config : Config} (accepted : Accepted config)
    {intent : ApplyIntent} {leaveAlone confirmed : List Path} {observed : Option Reports}
    {start middle : Session} {prepared : Prepared}
    (gathered : gather world config intent leaveAlone confirmed observed start = (.ok prepared, middle))
    (distinct : ((attempt world config intent prepared middle).wanted.writes.map (·.path)).Nodup)
    {held : Contents} (reported : ∀ volume ∈ (attempt world config intent prepared middle).volumes,
      held (.volume volume.1) = [.real volume.2]) :
    (attempt world config intent prepared middle).Sound held := by
  obtain ⟨latest, made, -⟩ := gathered_prepares gathered
  unfold preparePlan at made
  obtain ⟨⟨retained, known⟩, -, made⟩ := bind_eq_ok.mp made
  obtain ⟨wanted, plan, made⟩ := bind_eq_ok.mp made
  obtain rfl := pure_eq_ok.mp made
  obtain ⟨entries, skip, planned⟩ := applicationPlan_planned plan
  have regular := planned.regular accepted
  obtain ⟨keep, writes⟩ := attempt_writes world config intent _ middle
  refine ⟨⟨fun write member => ?_, fun write member => ?_⟩, distinct,
    attempt_volumes_sublist world config intent _ middle, reported⟩
  · rw [writes] at member
    exact regular.link write (List.mem_of_mem_filter member)
  · rw [writes] at member
    exact regular.volume write (List.mem_of_mem_filter member)

/-- Output 3 is linked with output 4, and both are at -10 dB. -/
def levelPair : Contents := fun path =>
  if path = .link .output 3 then [.int 1]
  else if path = .volume 3 ∨ path = .volume 4 then [.real (-10)]
  else []

theorem levelPair_linked {left : ℕ} (odd : left % 2 = 1) :
    levelPair.linked .output left = true ↔ left = 3 := by
  unfold Contents.linked levelPair
  rw [anchor_of_odd odd]
  simp

/-- What the switch of a plain stereo route makes of the pair. -/
def switchesPair (world : World) (file : IniFile) (observed : Reports) : Bool :=
  match attemptOf world (configOf file) .explicit (some observed) {} with
  | none => false
  | some (_, made) => made.volumes = [(3, -10)] && made.wanted.linkOf 3 = some true
      && made.wanted.volumesOf 3 = [] && (made.wanted.writes.map (·.path)).Nodup

/-- A peak-safe desk that sets the volume of one output of a linked pair. -/
def oneFader : IniFile where
  sections := [.single "desk" "peak-safe" "true", .route "route:main" "1/2" "3/4",
    .single "output:3" "volume" "-20"]
  distinct := by decide

/-- A desk that reports the volume of both outputs. -/
def levelVolumes : Reports := fun path =>
  if path = .volume 3 ∨ path = .volume 4 then some ⟨"f", [.real (-10)]⟩ else none

/-- Whether the plan of an apply, sent as it is, sets output 3 to -20 dB. -/
def setsThree (world : World) (file : IniFile) (observed : Reports) : Bool :=
  match attemptOf world (configOf file) .explicit (some observed) {} with
  | none => false
  | some (_, made) => levelPair.run made.plain (.volume 3) = [.real (-20)]

/-- The desk sets output 3 to -20 dB; given back behind it, the volume output 4 reported is what the
linked pair is left at. -/
example : ∃ prepared middle stop,
    applyRouting (refusingAt 99) (configOf oneFader) .explicit [] [] [] (some levelVolumes) {}
        = (.ok (), stop)
      ∧ gather (refusingAt 99) (configOf oneFader) .explicit [] [] (some levelVolumes) {}
        = (.ok prepared, middle)
      ∧ ¬ (attempt (refusingAt 99) (configOf oneFader) .explicit prepared middle).SameResult levelPair
        stop.sent := by
  have applied : (applyRouting (refusingAt 99) (configOf oneFader) .explicit [] [] []
      (some levelVolumes) {}).1 = .ok () := by decide +kernel
  have quiet : levelPair.run (applyRouting (refusingAt 99) (configOf oneFader) .explicit [] [] []
      (some levelVolumes) {}).2.sent (.volume 3) = [.real (-10)] := by decide +kernel
  have plain : setsThree (refusingAt 99) oneFader levelVolumes = true := by decide +kernel
  unfold setsThree at plain
  rcases known : attemptOf (refusingAt 99) (configOf oneFader) .explicit (some levelVolumes) {}
    with _ | ⟨prepared, made⟩
  · rw [known] at plain
    cases plain
  · rw [known] at plain
    obtain ⟨middle, gathered, rfl⟩ := attemptOf_gather known
    refine ⟨prepared, middle, _, Prod.ext applied rfl, gathered, fun same => ?_⟩
    rw [same.final, of_decide_eq_true plain] at quiet
    exact absurd quiet (by decide)

end OscmixDesk
