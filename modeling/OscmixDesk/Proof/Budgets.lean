/-
**The DSP budgets hold behind every apply** (`limits.py`, `prechecks.py`).

What an apply leaves running is its plan executed on the observed outputs (`executed`): the last write of a switch,
or its last report. The check counts that state before anything is written:

* `lookup_writtenSwitches` — what it counts as written is the last word of the plan on each switch;
* `dspProblem_eq_none` — its count is the number of outputs Room EQ runs on, both of a linked pair where either has
  it on, and the number of pairs with Crossfeed;
* `dspBudgets` — a plan that is returned and switches one on keeps the budgets.
-/

import Mathlib.Data.Finset.Image
import OscmixDesk.Foundation.LastWins
import OscmixDesk.Proof.Account

namespace OscmixDesk

open Effects Checks

/-! ### Executing a plan -/

/-- What a write leaves in a switch. -/
def Write.switched (write : Write) : ℤ :=
  (integer (write.args.headD (.str ""))).toOption.getD 0

/-- The switches as reports have them; one that did not report is off. -/
def reportedSwitches (observed : Reports) (path : Path) : ℤ :=
  reportedSwitch (observed path)

/-- The switches after the writes of a plan, one after another. -/
def executed (switches : Path → ℤ) (writes : List Write) : Path → ℤ :=
  writes.foldl (fun held write => Function.update held write.path write.switched) switches

/-- A plan turns a switch on where its last word on it does. -/
def TurnsOn (writes : List Write) (path : Path) : Prop :=
  ∃ write, lastOf Write.path path writes = some write ∧ write.switched ≠ 0

/-- The switches the limits count. -/
def IsCounted (channels : List ℕ) (path : Path) : Prop :=
  ∃ option ∈ ["roomeq", "crossfeed"], ∃ channel ∈ channels, path = outputSwitch option channel

/-- A plan switches a Room EQ or a Crossfeed on. -/
def SwitchesOn (channels : List ℕ) (writes : List Write) : Prop :=
  ∃ path, IsCounted channels path ∧ TurnsOn writes path

/-- Room EQ runs on an output that has it on, and on both outputs of a linked pair where either has. -/
def RoomeqRuns (switches : Path → ℤ) (channel : ℕ) : Prop :=
  switches (outputSwitch "roomeq" channel) ≠ 0
    ∨ switches (.link .output (pairLeft channel)) = 1
      ∧ (switches (outputSwitch "roomeq" (pairLeft channel)) ≠ 0
        ∨ switches (outputSwitch "roomeq" (pairLeft channel + 1)) ≠ 0)

instance (switches : Path → ℤ) (channel : ℕ) : Decidable (RoomeqRuns switches channel) :=
  inferInstanceAs (Decidable (_ ∨ _))

def roomeqChannels (channels : List ℕ) (switches : Path → ℤ) : Finset ℕ :=
  channels.toFinset.filter (RoomeqRuns switches)

def crossfeedPairs (channels : List ℕ) (switches : Path → ℤ) : Finset ℕ :=
  (channels.toFinset.filter fun channel => switches (outputSwitch "crossfeed" channel) ≠ 0).image pairLeft

/-- At most 16 outputs run Room EQ, and at most 4 pairs Crossfeed. -/
def WithinBudgets (channels : List ℕ) (switches : Path → ℤ) : Prop :=
  (roomeqChannels channels switches).card ≤ 16 ∧ (crossfeedPairs channels switches).card ≤ 4

/-- A switch after a plan is what the last write left, or what it was. -/
theorem executed_apply (switches : Path → ℤ) (writes : List Write) (path : Path) :
    executed switches writes path
      = ((lastOf Write.path path writes).map Write.switched).getD (switches path) := by
  have wins : LastWins (fun (held : Path → ℤ) (write : Write) => Function.update held write.path write.switched)
      Write.path path (fun held => held path) (fun _ write => write.switched) := by
    refine ⟨?_, ?_, fun _ _ _ _ _ => rfl⟩
    · rintro held write rfl
      exact Function.update_self _ _ _
    · intro held write other
      exact Function.update_of_ne (Ne.symm other) _ _
  have last := @LastWins.foldl _ _ _ _ _ _ _ writes _ _ _ wins switches
  unfold executed
  rw [last]
  cases lastOf Write.path path writes <;> rfl

/-- A plan that turns a switch not on leaves it off, or as it was. -/
theorem executed_eq_zero {switches : Path → ℤ} {writes : List Write} {path : Path}
    (quiet : ¬ TurnsOn writes path) (off : switches path = 0) : executed switches writes path = 0 := by
  rw [executed_apply]
  cases last : lastOf Write.path path writes with
  | none => exact off
  | some write =>
      by_contra on
      exact quiet ⟨write, last, on⟩

/-- The budgets look at the switches and at the links of the outputs only. -/
theorem withinBudgets_congr {channels : List ℕ} {switches others : Path → ℤ}
    (same : ∀ option channel, switches (outputSwitch option channel) = others (outputSwitch option channel)) :
    WithinBudgets channels switches ↔ WithinBudgets channels others := by
  have runs (channel : ℕ) : RoomeqRuns switches channel ↔ RoomeqRuns others channel := by
    unfold RoomeqRuns
    have link : switches (.link .output (pairLeft channel)) = others (.link .output (pairLeft channel)) :=
      same "stereo" (pairLeft channel)
    rw [same, same, same, link]
  have rooms : roomeqChannels channels switches = roomeqChannels channels others :=
    Finset.filter_congr fun channel _ => runs channel
  have pairs : crossfeedPairs channels switches = crossfeedPairs channels others := by
    unfold crossfeedPairs
    congr 1
    ext channel
    rw [Finset.mem_filter, Finset.mem_filter, same]
  unfold WithinBudgets
  rw [rooms, pairs]

/-! ### What is counted as written -/

section Written

variable {writes : List Write} {option : String} {channels : List ℕ}

/-- The output whose switch a write is on. -/
def switchedChannel (option : String) (channels : List ℕ) (write : Write) : Option ℕ :=
  channels.find? fun channel => write.path = outputSwitch option channel

theorem switchedChannel_eq_some {write : Write} {channel : ℕ} :
    switchedChannel option channels write = some channel
      ↔ channel ∈ channels ∧ write.path = outputSwitch option channel := by
  constructor
  · intro found
    have hit := @List.find?_some _ _ _ _ found
    exact ⟨List.mem_of_find?_eq_some found, of_decide_eq_true hit⟩
  · rintro ⟨member, same⟩
    cases found : switchedChannel option channels write with
    | none =>
        have miss := List.find?_eq_none.mp found channel member
        simp [same] at miss
    | some other =>
        unfold switchedChannel at found
        have hit := List.find?_some found
        have place := of_decide_eq_true hit
        rw [same] at place
        injection place with _ number _
        rw [number]

/-- The words of a plan on the switches of one kind. -/
def switchWords (option : String) (channels : List ℕ) (writes : List Write) : List (ℕ × ℤ) :=
  writes.filterMap fun write => (switchedChannel option channels write).map (·, write.switched)

/-- The last word on a switch is the last write of it. -/
theorem lookup_switchWords {channel : ℕ} (known : channel ∈ channels) :
    (switchWords option channels writes).reverse.lookup channel
      = (lastOf Write.path (outputSwitch option channel) writes).map Write.switched := by
  induction writes using List.reverseRecOn with
  | nil => rfl
  | append_singleton writes last ih =>
      unfold switchWords at ih ⊢
      rw [List.filterMap_append, List.reverse_append]
      by_cases same : last.path = outputSwitch option channel
      · have hit : switchedChannel option channels last = some channel :=
          switchedChannel_eq_some.mpr ⟨known, same⟩
        rw [lastOf_append_same same]
        simp [hit]
      · rw [lastOf_append_other same, ← ih]
        cases found : switchedChannel option channels last with
        | none => simp [found]
        | some other =>
            have apart : (channel == other) = false := by
              rw [beq_eq_false_iff_ne]
              rintro rfl
              exact same (switchedChannel_eq_some.mp found).2
            simp [found, List.lookup_cons, apart]

/-- Distinct keys with what is known of them, looked up. -/
theorem lookup_filterMap (known : ℕ → Option ℤ) (keys : List ℕ) (key : ℕ)
    (held : known key ≠ none → key ∈ keys) :
    (keys.filterMap fun other => (known other).map (other, ·)).lookup key = known key := by
  induction keys with
  | nil =>
      by_contra other
      exact absurd (held (Ne.symm other)) List.not_mem_nil
  | cons first rest ih =>
      by_cases same : key = first
      · subst same
        cases here : known key with
        | none =>
            rw [List.filterMap_cons, here]
            simp only [Option.map_none]
            rw [ih fun some => absurd here some, here]
        | some value => simp [here]
      · have later : known key ≠ none → key ∈ rest := fun some =>
          (List.mem_cons.mp (held some)).resolve_left same
        have apart : (key == first) = false := beq_eq_false_iff_ne.mpr same
        cases there : known first with
        | none => simpa [there] using ih later
        | some value => simpa [there, List.lookup_cons, apart] using ih later

/-- What is counted as written: the words of the plan, one for each output. -/
theorem writtenSwitches_ok {words : List (ℕ × ℤ)} (done : writtenSwitches writes option channels = .ok words) :
    words = ((switchWords option channels writes).map Prod.fst).dedup.filterMap fun channel =>
      ((switchWords option channels writes).reverse.lookup channel).map (channel, ·) := by
  unfold writtenSwitches at done
  obtain ⟨found, read, same⟩ := bind_eq_ok.mp done
  have values : found = switchWords option channels writes := by
    have copied := @map_mapM _ _ _ _ _ _ _ (fun item : ℕ × Args =>
      (item.1, (integer (item.2.headD (.str ""))).toOption.getD 0)) id (fun item result here => ?_) read
    · rw [List.map_id] at copied
      rw [copied, List.map_filterMap]
      unfold switchWords switchedChannel
      simp only [Option.map_map, Function.comp_def, Write.switched]
    · obtain ⟨value, known, same⟩ := bind_eq_ok.mp here
      obtain rfl := pure_eq_ok.mp same
      rw [known]
      rfl
  rw [← values]
  exact (Except.ok.inj same).symm

/-- Looking a counted word up gives the last word of the plan. -/
theorem lookup_writtenSwitches {words : List (ℕ × ℤ)} (done : writtenSwitches writes option channels = .ok words)
    {channel : ℕ} (known : channel ∈ channels) :
    words.lookup channel = (lastOf Write.path (outputSwitch option channel) writes).map Write.switched := by
  rw [writtenSwitches_ok done, lookup_filterMap, lookup_switchWords known]
  intro some
  rw [List.mem_dedup]
  by_contra missing
  apply some
  rw [List.lookup_eq_none_iff]
  intro word member
  rw [bne_iff_ne]
  rintro rfl
  exact missing (List.mem_map_of_mem (List.mem_reverse.mp member))

/-- A counted word is on an output, and the last of the plan there. -/
theorem mem_writtenSwitches {words : List (ℕ × ℤ)} (done : writtenSwitches writes option channels = .ok words)
    {channel : ℕ} {value : ℤ} :
    (channel, value) ∈ words ↔ channel ∈ channels ∧ ∃ write,
      lastOf Write.path (outputSwitch option channel) writes = some write ∧ write.switched = value := by
  have words' := writtenSwitches_ok done
  constructor
  · intro member
    rw [words', List.mem_filterMap] at member
    obtain ⟨key, among, found⟩ := member
    rw [List.mem_dedup, List.mem_map] at among
    obtain ⟨word, spoken, rfl⟩ := among
    obtain ⟨write, -, hit⟩ := List.mem_filterMap.mp spoken
    obtain ⟨other, on, rfl⟩ := Option.map_eq_some_iff.mp hit
    have known := (switchedChannel_eq_some.mp on).1
    rw [lookup_switchWords known] at found
    obtain ⟨last, here, same⟩ := Option.map_eq_some_iff.mp found
    obtain ⟨final, is, rfl⟩ := Option.map_eq_some_iff.mp here
    cases same
    exact ⟨known, final, is, rfl⟩
  · rintro ⟨known, write, last, rfl⟩
    have found := lookup_writtenSwitches done known
    rw [last, Option.map_some, List.lookup_eq_some_iff] at found
    obtain ⟨before, after, rfl, -⟩ := found
    simp

end Written

/-! ### What the plan turns on -/

section On

variable {config : Config} {limits : DspLimits} {channels : List ℕ} {writes : List Write} {held : List Path}

/-- What is held back is every switch the plan turns on. -/
theorem mem_switchingOn (limited : limitsOf config = some (limits, channels))
    (done : switchingOn config writes = .ok held) (path : Path) :
    path ∈ held ↔ IsCounted channels path ∧ TurnsOn writes path := by
  unfold switchingOn at done
  rw [limited] at done
  obtain ⟨both, read, same⟩ := bind_eq_ok.mp done
  obtain rfl := pure_eq_ok.mp same
  have pairs := mapM_eq_ok.mp read
  -- one list for each of the two options
  have each (option : String) (paths : List Path)
      (known : (do
        let words ← writtenSwitches writes option channels
        return (words.filter (·.2 ≠ 0)).map fun word => outputSwitch option word.1) = Except.ok paths) :
      path ∈ paths ↔ ∃ channel ∈ channels, path = outputSwitch option channel ∧ TurnsOn writes path := by
    obtain ⟨words, written, same⟩ := bind_eq_ok.mp known
    obtain rfl := pure_eq_ok.mp same
    rw [List.mem_map]
    constructor
    · rintro ⟨⟨channel, value⟩, member, rfl⟩
      obtain ⟨spoken, on⟩ := List.mem_filter.mp member
      obtain ⟨among, write, last, rfl⟩ := (mem_writtenSwitches written).mp spoken
      exact ⟨channel, among, rfl, write, last, by simpa using on⟩
    · rintro ⟨channel, among, rfl, write, last, on⟩
      refine ⟨(channel, write.switched), List.mem_filter.mpr ⟨?_, by simpa using on⟩, rfl⟩
      exact (mem_writtenSwitches written).mpr ⟨among, write, last, rfl⟩
  rw [List.mem_flatten]
  constructor
  · rintro ⟨paths, member, here⟩
    obtain ⟨option, among, known⟩ := exists_left pairs member
    obtain ⟨channel, on, same, turns⟩ := (each option paths known).mp here
    exact ⟨⟨option, among, channel, on, same⟩, turns⟩
  · rintro ⟨⟨option, among, channel, on, same⟩, turns⟩
    obtain ⟨paths, member, known⟩ := exists_right pairs among
    exact ⟨paths, member, (each option paths known).mpr ⟨channel, on, same, turns⟩⟩

theorem switchingOn_isEmpty (limited : limitsOf config = some (limits, channels))
    (done : switchingOn config writes = .ok held) : held.isEmpty = true ↔ ¬ SwitchesOn channels writes := by
  rw [List.isEmpty_iff, List.eq_nil_iff_forall_not_mem]
  constructor
  · rintro none ⟨path, counted, turns⟩
    exact none path ((mem_switchingOn limited done path).mpr ⟨counted, turns⟩)
  · intro none path member
    exact none ⟨path, (mem_switchingOn limited done path).mp member⟩

/-- The words of a plan, counted over the reports, are the switches behind it. -/
theorem countedSwitch_eq {option : String} {words : List (ℕ × ℤ)} {channel : ℕ} (observed : Reports)
    (done : writtenSwitches writes option channels = .ok words) (known : channel ∈ channels) :
    countedSwitch words option observed channel
      = executed (reportedSwitches observed) writes (outputSwitch option channel) := by
  unfold countedSwitch
  rw [lookup_writtenSwitches done known, executed_apply]
  rfl

end On

/-! ### Counting -/

/-- The outputs come in whole pairs. -/
def Paired (channels : List ℕ) : Prop :=
  ∀ channel ∈ channels, 0 < channel ∧ pairLeft channel ∈ channels ∧ pairLeft channel + 1 ∈ channels

/-- The outputs that count for Room EQ: those that have it on, and both of a linked pair where either has. -/
def roomsOf (roomeq linked : List ℕ) : List ℕ :=
  roomeq ++ (linked.filter fun left => roomeq.contains left || roomeq.contains (left + 1)).flatMap
    fun left => [left, left + 1]

theorem dspProblem_eq_none_iff (limits : DspLimits) (roomeq crossfeed linked : List ℕ) :
    dspProblem limits roomeq crossfeed linked = none
      ↔ (roomsOf roomeq linked).toFinset.card ≤ limits.roomeqChannels
        ∧ (crossfeed.map pairLeft).toFinset.card ≤ limits.crossfeedPairs := by
  rw [List.card_toFinset, List.card_toFinset]
  show (if limits.roomeqChannels < (roomsOf roomeq linked).dedup.length then _ else _) = none ↔ _
  split_ifs with many crossed
  · simp [Nat.not_le.mpr many]
  · simp [Nat.not_le.mpr crossed]
  · exact ⟨fun _ => ⟨Nat.le_of_not_lt many, Nat.le_of_not_lt crossed⟩, fun _ => rfl⟩

theorem mem_roomsOf {roomeq linked : List ℕ} {channel : ℕ} :
    channel ∈ roomsOf roomeq linked ↔ channel ∈ roomeq ∨ ∃ left ∈ linked,
      (left ∈ roomeq ∨ left + 1 ∈ roomeq) ∧ (channel = left ∨ channel = left + 1) := by
  simp [roomsOf, and_assoc]

/-- The count is what runs: no output and no pair is counted twice or left out. -/
theorem dspProblem_eq_none {channels : List ℕ} (paired : Paired channels) (switches : Path → ℤ) :
    dspProblem ⟨16, 4⟩ (channels.filter fun channel => switches (outputSwitch "roomeq" channel) ≠ 0)
        (channels.filter fun channel => switches (outputSwitch "crossfeed" channel) ≠ 0)
        (channels.filter fun channel => channel % 2 = 1 && switches (outputSwitch "stereo" channel) = 1) = none
      ↔ WithinBudgets channels switches := by
  have rooms : (roomsOf (channels.filter fun channel => switches (outputSwitch "roomeq" channel) ≠ 0)
      (channels.filter fun channel => channel % 2 = 1
        && switches (outputSwitch "stereo" channel) = 1)).toFinset = roomeqChannels channels switches := by
    ext channel
    rw [roomeqChannels, Finset.mem_filter, List.mem_toFinset, List.mem_toFinset, mem_roomsOf]
    simp only [List.mem_filter, decide_eq_true_eq, Bool.and_eq_true]
    constructor
    · rintro (on | ⟨left, ⟨known, odd, linked⟩, either, side⟩)
      · exact ⟨on.1, Or.inl on.2⟩
      · have pair : pairLeft channel = left := by
          rcases side with rfl | rfl
          · exact pairLeft_odd odd
          · exact pairLeft_even odd
        refine ⟨?_, Or.inr ?_⟩
        · rcases side with rfl | rfl
          · exact known
          · have right := (paired left known).2.2
            rwa [pairLeft_odd odd] at right
        · rw [pair]
          exact ⟨linked, either.imp And.right And.right⟩
    · rintro ⟨known, on | ⟨linked, either⟩⟩
      · exact Or.inl ⟨known, on⟩
      · obtain ⟨positive, left, right⟩ := paired channel known
        have odd : pairLeft channel % 2 = 1 ∧ (channel = pairLeft channel ∨ channel = pairLeft channel + 1) := by
          unfold pairLeft
          omega
        refine Or.inr ⟨pairLeft channel, ⟨left, odd.1, linked⟩, ?_, odd.2⟩
        exact either.imp (fun on => ⟨left, on⟩) fun on => ⟨right, on⟩
  have pairs : ((channels.filter fun channel => switches (outputSwitch "crossfeed" channel) ≠ 0).map
      pairLeft).toFinset = crossfeedPairs channels switches := by
    ext left
    simp [crossfeedPairs]
  rw [dspProblem_eq_none_iff, rooms, pairs]
  rfl

/-- The one limited device, and its outputs. -/
theorem limitsOf_cases {config : Config} {limits : DspLimits} {channels : List ℕ}
    (limited : limitsOf config = some (limits, channels)) : limits = ⟨16, 4⟩ ∧ Paired channels := by
  unfold limitsOf at limited
  simp only [Option.bind_eq_bind, Option.bind_eq_some_iff, Option.pure_def, Option.some.injEq,
    Prod.mk.injEq] at limited
  obtain ⟨device, known, found, limit, rfl, rfl⟩ := limited
  unfold dspLimits at limit
  split_ifs at limit with name
  cases limit
  rw [name] at known
  have named : deviceForName "Fireface UCX II" = some ucx2 := rfl
  obtain rfl := Option.some.inj (known.symm.trans named)
  refine ⟨rfl, ?_⟩
  unfold Paired
  decide

/-! ### The check in front of an apply -/

section Apply

variable (world : World) {config : Config} {limits : DspLimits} {channels : List ℕ}

/-- The problem a plan has, where it can be counted. -/
theorem planDspProblem_ok {writes : List Write} {observed : Reports} {problem : Option ConfigProblem}
    (limited : limitsOf config = some (limits, channels))
    (done : planDspProblem config writes observed = .ok problem) :
    problem = none ↔ (SwitchesOn channels writes →
      WithinBudgets channels (executed (reportedSwitches observed) writes)) := by
  obtain ⟨rfl, paired⟩ := limitsOf_cases limited
  unfold planDspProblem at done
  obtain ⟨held, switching, done⟩ := bind_eq_ok.mp done
  have quiet := switchingOn_isEmpty limited switching
  by_cases empty : held.isEmpty = true
  · rw [if_pos empty] at done
    obtain rfl := pure_eq_ok.mp done
    exact ⟨fun _ on => absurd on (quiet.mp empty), fun _ => rfl⟩
  · rw [if_neg empty, limited] at done
    have on : SwitchesOn channels writes := by
      by_contra off
      exact empty (quiet.mpr off)
    obtain ⟨links, linkWords, done⟩ := bind_eq_ok.mp done
    obtain ⟨rooms, roomsRead, done⟩ := bind_eq_ok.mp done
    obtain ⟨feeds, feedsRead, done⟩ := bind_eq_ok.mp done
    obtain ⟨roomWords, roomsWritten, same⟩ := bind_eq_ok.mp roomsRead
    obtain rfl := pure_eq_ok.mp same
    obtain ⟨feedWords, feedsWritten, same⟩ := bind_eq_ok.mp feedsRead
    obtain rfl := pure_eq_ok.mp same
    obtain rfl := pure_eq_ok.mp done
    have roomeq : (channels.filter fun channel => countedSwitch roomWords "roomeq" observed channel ≠ 0)
        = channels.filter fun channel =>
          executed (reportedSwitches observed) writes (outputSwitch "roomeq" channel) ≠ 0 :=
      List.filter_congr fun channel known => by rw [countedSwitch_eq observed roomsWritten known]
    have crossfeed : (channels.filter fun channel => countedSwitch feedWords "crossfeed" observed channel ≠ 0)
        = channels.filter fun channel =>
          executed (reportedSwitches observed) writes (outputSwitch "crossfeed" channel) ≠ 0 :=
      List.filter_congr fun channel known => by rw [countedSwitch_eq observed feedsWritten known]
    have linked : (channels.filter fun channel =>
          channel % 2 = 1 && countedSwitch links "stereo" observed channel = 1)
        = channels.filter fun channel => channel % 2 = 1
          && executed (reportedSwitches observed) writes (outputSwitch "stereo" channel) = 1 :=
      List.filter_congr fun channel known => by rw [countedSwitch_eq observed linkWords known]
    rw [imp_iff_right on, ← dspProblem_eq_none paired, roomeq, crossfeed, linked]

/-- What the outputs are taken to be in front of a plan: what was reported, and what a window on the rest reports. -/
def observedOutputs (config : Config) (latest : Reports) (start : Session) : Reports :=
  match readAll world .dspLimit ((observationPaths config).filter fun path => (latest path).isNone) start with
  | (.ok read, _) => fun path => (read path).or (latest path)
  | (.error _, _) => latest

theorem dspLimitProblem_ends (limited : limitsOf config = some (limits, channels)) (writes : List Write)
    (latest : Reports) (start : Session) :
    Ends (dspLimitProblem world config writes latest) start
      (fun problem _ => problem = none ↔ (SwitchesOn channels writes → WithinBudgets channels
        (executed (reportedSwitches (observedOutputs world config latest start)) writes)))
      fun _ _ => True := by
  unfold dspLimitProblem counted
  rw [ends_bind, planned, ends_lift]
  refine ⟨fun held known => ?_, fun _ _ => trivial⟩
  have switching := mapError_eq_ok.mp (mapError_eq_ok.mp known)
  have quiet := switchingOn_isEmpty limited switching
  by_cases empty : held.isEmpty = true
  · rw [if_pos empty]
    exact ⟨fun _ on => absurd on (quiet.mp empty), fun _ => rfl⟩
  · rw [if_neg empty]
    dsimp only
    rw [ends_bind]
    refine (ends_self _ start).imp (fun read middle ran => ?_) fun _ _ _ => trivial
    rw [planned, ends_lift]
    refine ⟨fun problem found => ?_, fun _ _ => trivial⟩
    have seen : observedOutputs world config latest start = fun path => (read path).or (latest path) := by
      unfold observedOutputs
      rw [ran]
    rw [seen]
    exact planDspProblem_ok limited (mapError_eq_ok.mp (mapError_eq_ok.mp found))

/-- What the check of a plan comes to: the plan, the plan without what it turns on, or a refusal. -/
theorem withinDspLimits_budget (limited : limitsOf config = some (limits, channels)) (wanted : Plan)
    (latest : Reports) (intent : ApplyIntent) (start : Session) :
    let observed := reportedSwitches (observedOutputs world config latest start)
    let exceeds := SwitchesOn channels wanted.writes
      ∧ ¬ WithinBudgets channels (executed observed wanted.writes)
    Ends (withinDspLimits world config wanted latest intent) start
      (fun plan stop => Looked start stop
        ∧ (SwitchesOn channels plan.writes → WithinBudgets channels (executed observed plan.writes))
        ∧ (¬ exceeds → plan = wanted)
        ∧ (exceeds → intent ≠ .explicit ∧ ¬ SwitchesOn channels plan.writes
          ∧ (∀ path, IsCounted channels path → observed path = 0 → executed observed plan.writes path = 0)
          ∧ ∃ held : List Path, (∀ path, path ∈ held ↔ IsCounted channels path ∧ TurnsOn wanted.writes path)
            ∧ plan = { wanted with writes := wanted.writes.filter fun write => !held.contains write.path }))
      fun problem stop => Looked start stop ∧ NothingGone wanted.writes problem := by
  intro observed exceeds
  unfold withinDspLimits
  rw [ends_bind]
  refine ((dspLimitProblem_ends world limited wanted.writes latest start).and
    (looks_dspLimitProblem world config wanted.writes latest start)).imp (fun problem middle known => ?_)
      fun _ _ failed => ⟨failed.2.1, failed.2.2.nothingGone _⟩
  obtain ⟨decided, looked⟩ := known
  have within : ¬ exceeds ↔ problem = none := by
    rw [decided, not_and, not_not]
  cases problem with
  | none =>
      have keeps := within.mpr rfl
      exact ⟨looked, decided.mp rfl, fun _ => rfl, fun beyond => absurd beyond keeps⟩
  | some problem =>
      have beyond : exceeds := by
        by_contra keeps
        cases within.mp keeps
      show Ends (if intent = .explicit then _ else _) middle _ _
      rw [ends_ite]
      refine ⟨fun _ => ⟨looked, nothingGone_writeFailed _ _⟩, fun quiet => ?_⟩
      unfold counted
      rw [ends_bind, planned, ends_lift]
      refine ⟨fun held found => ?_, fun _ failed => ⟨looked, ?_⟩⟩
      · have among := mem_switchingOn limited (mapError_eq_ok.mp (mapError_eq_ok.mp found))
        have silent (path : Path) (counted : IsCounted channels path) :
            ¬ TurnsOn (wanted.writes.filter fun write => !held.contains write.path) path := by
          rintro ⟨write, last, on⟩
          obtain rfl := key_lastOf last
          have spared := (List.mem_filter.mp (mem_of_lastOf last)).2
          have free : write.path ∉ held := by simpa using spared
          -- a register that is not held back keeps its writes, the last one too
          have kept : lastOf Write.path write.path (wanted.writes.filter fun other => !held.contains other.path)
              = lastOf Write.path write.path wanted.writes :=
            lastOf_filter fun other _ same => by simpa [same] using free
          rw [kept] at last
          exact free ((among write.path).mpr ⟨counted, write, last, on⟩)
        have off : ¬ SwitchesOn channels (wanted.writes.filter fun write => !held.contains write.path) := by
          rintro ⟨path, counted, turns⟩
          exact silent path counted turns
        exact ⟨looked, fun on => absurd on off, fun keeps => absurd beyond keeps, fun _ => ⟨quiet, off,
          fun path counted => executed_eq_zero (silent path counted), held, among, rfl⟩⟩
      · rintro cause written unwritten rfl
        cases result : orNumeric (switchingOn config wanted.writes) with
        | ok held =>
            rw [result] at failed
            cases failed
        | error fault =>
            rw [result] at failed
            cases failed

/-- Without a limit a plan is submitted as it is. -/
theorem submitted_unlimited (free : limitsOf config = none) {wanted submitted : Plan} {latest : Reports}
    {intent : ApplyIntent} {start stop : Session}
    (limited : withinDspLimits world config wanted latest intent start = (.ok submitted, stop)) :
    submitted = wanted := by
  have quiet : switchingOn config wanted.writes = .ok [] := by
    unfold switchingOn
    rw [free]
    rfl
  have ends : Ends (withinDspLimits world config wanted latest intent) start (fun plan _ => plan = wanted)
      fun _ _ => True := by
    unfold withinDspLimits dspLimitProblem counted planned
    rw [quiet, ends_bind, ends_bind, ends_lift]
    refine ⟨fun held known => ?_, fun _ _ => trivial⟩
    obtain rfl : [] = held := Except.ok.inj known
    rfl
  exact ends.returned limited

/-- What the budgets leave of a plan: every write but those of the switches it turns on, where it is over them. -/
theorem mem_submitted {wanted submitted : Plan} {latest : Reports} {start stop : Session} {path : Path}
    (limited : withinDspLimits world config wanted latest .reconcile start = (.ok submitted, stop)) :
    path ∈ submitted.writes.map (·.path) ↔ path ∈ wanted.writes.map (·.path)
      ∧ ¬ ∃ limits channels, limitsOf config = some (limits, channels) ∧ IsCounted channels path
        ∧ TurnsOn wanted.writes path
        ∧ ¬ WithinBudgets channels (executed (reportedSwitches (observedOutputs world config latest start))
          wanted.writes) := by
  cases known : limitsOf config with
  | none =>
      rw [submitted_unlimited world known limited]
      simp
  | some found =>
      obtain ⟨limits, channels⟩ := found
      obtain ⟨-, -, whole, without⟩ :=
        (withinDspLimits_budget world known wanted latest .reconcile start).returned limited
      set switches := reportedSwitches (observedOutputs world config latest start)
      have one : (∃ limits' channels', some (limits, channels) = some (limits', channels')
            ∧ IsCounted channels' path ∧ TurnsOn wanted.writes path
            ∧ ¬ WithinBudgets channels' (executed switches wanted.writes))
          ↔ IsCounted channels path ∧ TurnsOn wanted.writes path
            ∧ ¬ WithinBudgets channels (executed switches wanted.writes) := by
        constructor
        · rintro ⟨_, _, same, own⟩
          cases same
          exact own
        · exact fun own => ⟨limits, channels, rfl, own⟩
      rw [one]
      by_cases exceeds : SwitchesOn channels wanted.writes
          ∧ ¬ WithinBudgets channels (executed switches wanted.writes)
      · obtain ⟨-, -, -, held, among, rfl⟩ := without exceeds
        have taken : (IsCounted channels path ∧ TurnsOn wanted.writes path
            ∧ ¬ WithinBudgets channels (executed switches wanted.writes)) ↔ path ∈ held := by
          rw [among, ← and_assoc, and_iff_left exceeds.2]
        rw [taken, List.mem_map, List.mem_map]
        constructor
        · rintro ⟨write, member, rfl⟩
          obtain ⟨inside, free⟩ := List.mem_filter.mp member
          exact ⟨⟨write, inside, rfl⟩, by simpa using free⟩
        · rintro ⟨⟨write, inside, rfl⟩, free⟩
          exact ⟨write, List.mem_filter.mpr ⟨inside, by simpa using free⟩, rfl⟩
      · rw [whole exceeds, and_iff_left]
        rintro ⟨counted, turns, beyond⟩
        exact exceeds ⟨⟨path, counted, turns⟩, beyond⟩

/-- **The DSP budgets hold after every apply.** A plan that is returned and switches a Room EQ or a Crossfeed on
leaves at most 16 outputs with Room EQ and at most 4 pairs with Crossfeed, executed on what was observed. A plan
within the budgets is returned as it is; one that would exceed them is refused on an explicit apply with nothing
sent, and on any other it loses the writes of the switches it turns on, and those only. -/
theorem dspBudgets (limited : limitsOf config = some (limits, channels)) (wanted : Plan) (latest : Reports)
    (intent : ApplyIntent) (start : Session) :
    let observed := reportedSwitches (observedOutputs world config latest start)
    let exceeds := SwitchesOn channels wanted.writes
      ∧ ¬ WithinBudgets channels (executed observed wanted.writes)
    let run := withinDspLimits world config wanted latest intent start
    (∀ plan stop, run = (.ok plan, stop) →
      (SwitchesOn channels plan.writes → WithinBudgets channels (executed observed plan.writes))
      ∧ (¬ exceeds → plan = wanted)
      ∧ (exceeds → ¬ SwitchesOn channels plan.writes
        ∧ (∀ path, IsCounted channels path → observed path = 0 → executed observed plan.writes path = 0)
        ∧ ∃ held : List Path, (∀ path, path ∈ held ↔ IsCounted channels path ∧ TurnsOn wanted.writes path)
          ∧ plan = { wanted with writes := wanted.writes.filter fun write => !held.contains write.path }))
    ∧ (exceeds → intent = .explicit → ∃ problem, run.1 = .error problem ∧ NothingGone wanted.writes problem)
    ∧ run.2.sent = start.sent := by
  intro observed exceeds run
  have ends := withinDspLimits_budget world limited wanted latest intent start
  rcases ran : withinDspLimits world config wanted latest intent start with ⟨problem | plan, stop⟩
  · obtain ⟨looked, nothing⟩ := ends.raised ran
    have same : run = (.error problem, stop) := ran
    rw [same]
    refine ⟨fun plan stop other => ?_, fun _ _ => ⟨problem, rfl, nothing⟩, looked.sent⟩
    cases other
  · obtain ⟨looked, keeps, whole, without⟩ := ends.returned ran
    have same : run = (.ok plan, stop) := ran
    rw [same]
    refine ⟨fun plan' stop' other => ?_, fun beyond explicit => absurd explicit (without beyond).1, looked.sent⟩
    cases other
    exact ⟨keeps, whole, fun beyond => (without beyond).2⟩

end Apply

/-- A plan that switches Room EQ on for the pair it links. -/
def roomeqPair : Plan where
  writes := [⟨.link .output 1, "i", [.int 1], .link, .missing⟩,
    ⟨outputSwitch "roomeq" 1, "i", [.int 1], .channel, .missing⟩]
  confirmed := []
  unverifiable := []

/-- A desk that reports nothing. -/
def silentDesk : World where
  stop := fun _ => false
  exchange := fun _ => .done
  grant := fun _ => .granted
  deliveries := fun _ => []
  playback := fun _ => none

theorem dspBudgets_roomeqPair :
    WithinBudgets (ucx2.channelsFor "output")
      (executed (reportedSwitches (observedOutputs silentDesk {} noReports {})) roomeqPair.writes) := by
  have limited : limitsOf {} = some (⟨16, 4⟩, ucx2.channelsFor "output") := rfl
  have ran : ((withinDspLimits silentDesk {} roomeqPair noReports .explicit {}).1.toOption.map Plan.writes)
      = some roomeqPair.writes := by decide +kernel
  obtain ⟨returned, -, -⟩ := dspBudgets silentDesk limited roomeqPair noReports .explicit {}
  rcases result : withinDspLimits silentDesk {} roomeqPair noReports .explicit {} with ⟨problem | plan, stop⟩
  · rw [result] at ran
    cases ran
  · rw [result] at ran
    have writes : plan.writes = roomeqPair.writes := Option.some.inj ran
    have keeps := (returned plan stop result).1
    rw [writes] at keeps
    apply keeps
    refine ⟨outputSwitch "roomeq" 1, ⟨"roomeq", by simp, 1, by decide, rfl⟩, ?_⟩
    exact ⟨⟨outputSwitch "roomeq" 1, "i", [.int 1], .channel, .missing⟩, by decide, by decide +kernel⟩

end OscmixDesk
