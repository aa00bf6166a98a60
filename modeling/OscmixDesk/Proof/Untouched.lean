/-
**What a later pass leaves as it is.**

A repair or a reconcile retains what the configuration remembers and the gains an AutoSet owns. Nothing of
it is written, and on a device whose linked pairs share their settings nothing of it changes: a write that
could reach it through a link does not pass the check (`Retention.writeProblem`), as far as the links are as
reported (`retained_unchanged`).
-/

import OscmixDesk.Proof.Peaks

namespace OscmixDesk

open Checks

/-- Whether a register is one of an input or an output. -/
def ofPair (path : Path) : Bool :=
  path.inFamily .input || path.inFamily .output

/-- A device is as it was seen: a link that was reported is as reported, and one that was confirmed is as
declared. -/
structure AsSeen (config : Config) (confirmed : List Path) (latest : Reports) (held : Contents) : Prop where
  reported : ∀ family left value, flagValue (latest (.link family left)) = some value →
    held (.link family left) = [.int value]
  confirmed : ∀ entries, desired config = .ok entries → ∀ entry ∈ entries, ∀ family left,
    entry.path = .link family left → entry.path ∈ confirmed → held entry.path = entry.args

/-- What the check of a plan on its last reports looks at. -/
def Retention.of (config : Config) (entries : List Entry) (selected : List Write)
    (retained confirmed : List Path) (latest : Reports) : Retention where
  keep := retained
  known := confirmed
  observed := some latest
  refreshed := dependencyPaths config
  declared := fun path => (entries.reverse.find? (·.path = path)).map (·.args)
  selected := selected

/-- A plan that passes the check has no write that could change a retained register. -/
theorem retentionProblem_none {config : Config} {entries : List Entry} (plans : desired config = .ok entries)
    {selected : List Write} {retained confirmed : List Path} {latest : Reports}
    (passed : retentionProblem config selected retained confirmed (some latest) = .ok none) :
    ∀ write ∈ selected,
      (Retention.of config entries selected retained confirmed latest).writeProblem write = none := by
  unfold retentionProblem at passed
  rw [plans] at passed
  dsimp only at passed
  by_cases blocked : (!((selected.map (·.path)).filter
      (protectedEntries config retained confirmed).contains).isEmpty) = true
  · rw [if_pos blocked] at passed
    cases passed
  · rw [if_neg blocked] at passed
    simp only [bind, Except.bind, pure, Except.pure] at passed
    have routes : config.routes.findSome?
        (Retention.of config entries selected retained confirmed latest).routeProblem = none := by
      cases found : config.routes.findSome?
          (Retention.of config entries selected retained confirmed latest).routeProblem with
      | none => rfl
      | some problem =>
          unfold Retention.of at found
          simp only [Option.isSome_some, if_true, found] at passed
          cases passed
    unfold Retention.of at routes
    simp only [Option.isSome_some, if_true, routes] at passed
    exact List.findSome?_eq_none_iff.mp (Except.ok.inj passed)

namespace Retention

variable {facts : Retention} {write : Write}

/-- A link that passes the check has nothing retained in its pair. -/
theorem link_apart (passed : facts.writeProblem write = none) {family : Family} {channel : ℕ}
    (paired : family ≠ .playback) (link : write.path = .link family channel) {number : ℕ} {setting : Setting}
    (near : anchor number = anchor channel) : Path.channel family number setting ∉ facts.keep := by
  intro kept
  have side : number = pairLeft channel ∨ number = pairLeft channel + 1 := by
    unfold anchor at near
    unfold pairLeft
    split at near <;> split at near <;> omega
  unfold writeProblem at passed
  rw [link] at passed
  cases family with
  | playback => exact paired rfl
  | input =>
      dsimp only at passed
      rw [if_pos rfl] at passed
      split at passed
      · next none =>
          have away := List.filter_eq_nil_iff.mp (List.isEmpty_iff.mp none) _ kept
          simp [side] at away
      · cases passed
  | output =>
      dsimp only at passed
      rw [if_pos rfl] at passed
      split at passed
      · next none =>
          have away := List.filter_eq_nil_iff.mp (List.isEmpty_iff.mp none) _ kept
          simp [side] at away
      · cases passed

/-- A setting whose twin is retained passes the check only where the pair is shown to be apart. -/
theorem setting_apart (passed : facts.writeProblem write = none) {family : Family} {channel : ℕ}
    {setting : Setting} (paired : family ≠ .playback) (plain : setting ≠ .flat "stereo")
    (own : write.path = .channel family channel setting)
    (kept : Path.channel family (partnerOf channel) setting ∈ facts.keep) :
    facts.apart (.link family (pairLeft channel)) = true := by
  unfold writeProblem at passed
  rw [own] at passed
  cases family with
  | playback => exact absurd rfl paired
  | input =>
      dsimp only at passed
      rw [if_neg plain] at passed
      simpa [kept] using passed
  | output =>
      dsimp only at passed
      rw [if_neg plain] at passed
      simpa [kept] using passed

end Retention

/-- What a run of checked writes keeps: the retained registers of inputs and outputs, and the links of their
pairs. -/
structure Untouched (keep : List Path) (held now : Contents) : Prop where
  value : ∀ path ∈ keep, ofPair path = true → now path = held path
  link : ∀ family number setting, Path.channel family number setting ∈ keep → family ≠ .playback →
    now (.link family (anchor number)) = held (.link family (anchor number))

section Unchanged

variable {config : Config} {entries : List Entry} {selected : List Write} {retained confirmed : List Path}
  {latest : Reports} {held now : Contents} {write : Write}

/-- A pair that is shown to be apart is apart on the device. -/
theorem AsSeen.unlinked (seen : AsSeen config confirmed latest held) (plans : desired config = .ok entries)
    {family : Family} {left : ℕ}
    (apart : (Retention.of config entries selected retained confirmed latest).apart (.link family left) = true) :
    held (.link family left) ≠ [.int 1] := by
  unfold Retention.apart Retention.of at apart
  obtain ⟨mono, -⟩ := Bool.and_eq_true_iff.mp apart
  dsimp only [Option.getD_some] at mono
  split at mono
  · rw [seen.reported family left 0 (of_decide_eq_true mono)]
    simp
  · obtain ⟨known, declared⟩ := Bool.and_eq_true_iff.mp (of_decide_eq_true mono)
    obtain ⟨entry, found, args⟩ := Option.map_eq_some_iff.mp (of_decide_eq_true declared)
    have path : entry.path = .link family left := by simpa using List.find?_some found
    have member : entry ∈ entries := List.mem_reverse.mp (List.mem_of_find?_eq_some found)
    have held := seen.confirmed entries plans entry member family left path
      (path ▸ List.contains_iff_mem.mp known)
    rw [← path, held, args]
    simp

theorem ofPair_iff {path : Path} : ofPair path = true ↔
    ∃ family number setting, path = .channel family number setting ∧ family ≠ .playback := by
  unfold ofPair Path.inFamily
  cases path with
  | channel family number setting => cases family <;> simp
  | mix output kind source => simp
  | global family option => simp

namespace Untouched

/-- A register outside of the pairs. -/
theorem update (kept : Untouched retained held now) {path : Path} (outside : ofPair path = false) (args : Args) :
    Untouched retained held (Function.update now path args) where
  value own member paired := by
    rw [Function.update_of_ne (by rintro rfl; exact Bool.false_ne_true (outside.symm.trans paired))]
    exact kept.value own member paired
  link family number setting member paired := by
    rw [Function.update_of_ne]
    · exact kept.link family number setting member paired
    · rintro rfl
      rw [ofPair_iff.mpr ⟨family, _, _, rfl, paired⟩] at outside
      cases outside

/-- The link of a pair with nothing retained in it. -/
theorem join (kept : Untouched retained held now) {family : Family} {channel : ℕ}
    (away : ∀ number setting, anchor number = anchor channel → Path.channel family number setting ∉ retained)
    (args : Args) : Untouched retained held (now.join family channel args) where
  value path member paired := by
    rw [← kept.value path member paired]
    obtain ⟨own, number, setting, rfl, -⟩ := ofPair_iff.mp paired
    unfold Contents.join
    rw [if_neg]
    · dsimp only
      rw [if_neg]
      rintro ⟨-, rfl, near, -⟩
      exact away number setting near member
    · intro same
      obtain ⟨rfl, rfl, rfl⟩ := Path.channel.inj same
      exact away _ _ (anchor_anchor channel) member
  link own number setting member paired := by
    rw [← kept.link own number setting member paired]
    unfold Contents.join
    rw [if_neg]
    · dsimp only
      rw [if_neg]
      rintro ⟨-, -, -, plain⟩
      exact plain rfl
    · intro same
      obtain ⟨rfl, near, -⟩ := Path.channel.inj same
      exact away number setting near member

/-- A setting whose twin is not retained, or not linked with it. -/
theorem assign (kept : Untouched retained held now) {family : Family} {channel : ℕ} {setting : Setting}
    (plain : setting ≠ .flat "stereo") (free : Path.channel family channel setting ∉ retained)
    (twin : Path.channel family (twinOf channel) setting ∈ retained → now.linked family channel = false)
    (args : Args) : Untouched retained held (now.assign family channel setting args) := by
  have written {held' : Contents} (kept : Untouched retained held held') {number : ℕ}
      (free : Path.channel family number setting ∉ retained) :
      Untouched retained held (Function.update held' (.channel family number setting) args) := by
    refine ⟨fun path member paired => ?_, fun own other option member paired => ?_⟩
    · rw [Function.update_of_ne (by rintro rfl; exact free member)]
      exact kept.value path member paired
    · rw [Function.update_of_ne fun same => plain (Path.channel.inj same).2.2.symm]
      exact kept.link own other option member paired
  unfold Contents.assign
  dsimp only
  by_cases linked : now.linked family channel = true
  · rw [if_pos linked]
    refine written (written kept free) fun member => ?_
    rw [twin member] at linked
    cases linked
  · rw [if_neg linked]
    exact written kept free

/-- One checked write. -/
theorem receive (kept : Untouched retained held now) (seen : AsSeen config confirmed latest held)
    (plans : desired config = .ok entries)
    (passed : (Retention.of config entries selected retained confirmed latest).writeProblem write = none)
    (free : write.path ∉ retained) : Untouched retained held (now.receive write.message) := by
  have settled {family : Family} {channel : ℕ} {setting : Setting} (paired : family ≠ .playback)
      (own : write.path = .channel family channel setting) (plain : setting ≠ .flat "stereo") (args : Args) :
      Untouched retained held (now.assign family channel setting args) := by
    refine kept.assign plain (own ▸ free) (fun member => ?_) args
    have positive : channel ≠ 0 := by
      rintro rfl
      exact free (own ▸ member)
    have partner : twinOf channel = partnerOf channel := by
      unfold twinOf partnerOf pairLeft
      split <;> split <;> omega
    have near : anchor (twinOf channel) = pairLeft channel ∧ anchor channel = pairLeft channel := by
      by_cases odd : channel % 2 = 1
      · have same : pairLeft channel = channel := by
          unfold pairLeft
          omega
        rw [show twinOf channel = channel + 1 from if_pos odd, anchor_of_succ odd, anchor_of_odd odd, same]
        exact ⟨rfl, rfl⟩
      · have same : pairLeft channel = channel - 1 := by
          unfold pairLeft
          omega
        rw [show twinOf channel = channel - 1 from if_neg odd, anchor_of_odd (by omega), same]
        exact ⟨rfl, if_neg odd⟩
    have apart := seen.unlinked plans (Retention.setting_apart passed paired plain own (partner ▸ member))
    have same := kept.link family (twinOf channel) setting member paired
    rw [near.1] at same
    unfold Contents.linked
    rw [near.2, same]
    exact decide_eq_false apart
  have joined {family : Family} {channel : ℕ} (paired : family ≠ .playback)
      (link : write.path = .link family channel) (args : Args) :
      Untouched retained held (now.join family channel args) :=
    kept.join (fun _ _ near => Retention.link_apart passed paired link near) args
  obtain ⟨path, tags, args, phase, reason⟩ := write
  unfold Contents.receive Write.message
  cases path with
  | mix output kind source => exact kept.update rfl args
  | global family option => exact kept.update rfl args
  | channel family channel setting =>
      cases family with
      | playback => exact kept.update rfl args
      | input =>
          by_cases link : setting = .flat "stereo"
          · subst link
            exact joined (by simp) rfl args
          · simpa only [if_neg link] using settled (by simp) rfl link args
      | output =>
          by_cases link : setting = .flat "stereo"
          · subst link
            exact joined (by simp) rfl args
          · simpa only [if_neg link] using settled (by simp) rfl link args

/-- A run of checked writes. -/
theorem run (kept : Untouched retained held now) (seen : AsSeen config confirmed latest held)
    (plans : desired config = .ok entries) {writes : List Write}
    (passed : ∀ write ∈ writes, write.path ∉ retained
      ∧ (Retention.of config entries selected retained confirmed latest).writeProblem write = none) :
    Untouched retained held (now.run (writes.map Write.message)) := by
  induction writes generalizing now with
  | nil => exact kept
  | cons write rest ih =>
      obtain ⟨free, checked⟩ := passed write (List.mem_cons_self ..)
      exact ih (kept.receive seen plans checked free)
        fun other member => passed other (List.mem_cons_of_mem _ member)

end Untouched

end Unchanged

/-- A later pass retains what the configuration remembers and the gains an AutoSet owns. It writes nothing of
it, and on a device that is as it was seen every retained register of an input or an output holds behind the
plan what it held before. -/
theorem retained_unchanged {config : Config} {intent : ApplyIntent} (later : intent.preservesRemember = true)
    {leaveAlone confirmed : List Path} {latest : Reports} {prepared : Prepared}
    (made : preparePlan config intent leaveAlone confirmed latest = .ok prepared)
    (allowed : retentionProblem config prepared.wanted.writes prepared.retained prepared.confirmed
      (some latest) = .ok none)
    {held : Contents} (seen : AsSeen config confirmed latest held) :
    ∃ first kept, applicationPlan config intent leaveAlone confirmed (some latest) = .ok first
      ∧ rememberedPaths config (some latest) (writePaths (first.links.filter (·.args = [.int 1]))) = .ok kept
      ∧ prepared.retained = leaveAlone ++ kept
      ∧ (∀ path ∈ prepared.retained, ∀ write ∈ prepared.wanted.writes, write.path ≠ path)
      ∧ ∀ path ∈ prepared.retained, ofPair path = true →
        held.run (prepared.wanted.inOrder.map Write.message) path = held path := by
  unfold preparePlan at made
  obtain ⟨⟨retained, known⟩, chosen, made⟩ := bind_eq_ok.mp made
  obtain ⟨wanted, plan, made⟩ := bind_eq_ok.mp made
  obtain rfl := pure_eq_ok.mp made
  unfold retainedFor at chosen
  rw [if_pos later] at chosen
  obtain ⟨first, firstPlan, chosen⟩ := bind_eq_ok.mp chosen
  obtain ⟨kept, remembered, chosen⟩ := bind_eq_ok.mp chosen
  obtain ⟨rfl, rfl⟩ := Prod.mk.inj (pure_eq_ok.mp chosen)
  obtain ⟨entries, skip, planned⟩ := applicationPlan_planned plan
  have free : ∀ write ∈ wanted.writes, write.path ∉ leaveAlone ++ kept := by
    intro write member own
    refine planned.not_retained member ?_
    have left := planned.left
    unfold leftAlone at left
    rw [if_pos later] at left
    rw [planned.retained, List.mem_append, mem_preservedPaths planned.desired left]
    exact Or.inl (Or.inl own)
  have passed : ∀ write ∈ wanted.writes, (Retention.of config entries wanted.writes (leaveAlone ++ kept) confirmed
      latest).writeProblem write = none := retentionProblem_none planned.desired allowed
  refine ⟨first, kept, firstPlan, remembered, rfl, fun path own write member same => ?_, ?_⟩
  · exact free write member (same ▸ own)
  · have start : Untouched (leaveAlone ++ kept) held held := ⟨fun _ _ _ => rfl, fun _ _ _ _ _ => rfl⟩
    have checked : ∀ write ∈ wanted.inOrder, write.path ∉ leaveAlone ++ kept ∧ (Retention.of config entries
        wanted.writes (leaveAlone ++ kept) confirmed latest).writeProblem write = none := by
      intro write member
      have among := wanted.inOrder_perm.mem_iff.mp member
      exact ⟨free write among, passed write among⟩
    exact (start.run seen planned.desired checked).value

/-- A desk with one fader, which a later pass remembers. -/
def fadedPair : IniFile where
  sections := [.route "route:main" "1/2" "3/4", .single "output:3" "volume" "-20"]
  distinct := by decide

/-- A device that reports the link of the pair. -/
def linkedReports : Reports := fun path =>
  if path = .link .output 3 then some ⟨"i", [.int 1]⟩ else none

/-- A device whose fader was moved by hand. -/
def movedFader : Contents := fun path =>
  if path = .link .output 3 then [.int 1] else [.real (-30)]

/-- The fader stays where it was moved to. -/
theorem fadedPair_unchanged : ∃ prepared,
    preparePlan (configOf fadedPair) .reconcile [] [.link .output 3] linkedReports = .ok prepared
      ∧ Path.volume 3 ∈ prepared.retained
      ∧ movedFader.run (prepared.wanted.inOrder.map Write.message) (.volume 3) = [.real (-30)] := by
  have links : ((desired (configOf fadedPair)).toOption.getD []).all
      (fun entry => entry.path ≠ .link .output 3 || entry.args = [.int 1]) = true := by decide +kernel
  have fine : ((preparePlan (configOf fadedPair) .reconcile [] [.link .output 3] linkedReports).toOption.any
      fun prepared => prepared.retained.contains (.volume 3)
        && (retentionProblem (configOf fadedPair) prepared.wanted.writes prepared.retained prepared.confirmed
          (some linkedReports)).toOption = some none) = true := by decide +kernel
  rcases made : preparePlan (configOf fadedPair) .reconcile [] [.link .output 3] linkedReports
    with problem | prepared
  · rw [made] at fine
    cases fine
  · rw [made] at fine
    obtain ⟨kept, passed⟩ := Bool.and_eq_true_iff.mp fine
    have kept := List.contains_iff_mem.mp kept
    have allowed : retentionProblem (configOf fadedPair) prepared.wanted.writes prepared.retained
        prepared.confirmed (some linkedReports) = .ok none := by
      have passed := of_decide_eq_true passed
      rcases known : retentionProblem (configOf fadedPair) prepared.wanted.writes prepared.retained
        prepared.confirmed (some linkedReports) with problem | found
      · rw [known] at passed
        cases passed
      · rw [known] at passed
        exact congrArg Except.ok (Option.some.inj passed)
    have seen : AsSeen (configOf fadedPair) [.link .output 3] linkedReports movedFader := by
      constructor
      · intro family left value flag
        unfold linkedReports at flag
        by_cases own : Path.link family left = .link .output 3
        · rw [if_pos own] at flag
          obtain rfl : 1 = value := Option.some.inj flag
          rw [own]
          rfl
        · rw [if_neg own] at flag
          cases flag
      · intro entries plans entry member family left path confirmed
        rw [plans] at links
        obtain own := List.mem_singleton.mp confirmed
        have args := List.all_eq_true.mp links entry member
        rw [own] at args ⊢
        have args : entry.args = [.int 1] := by simpa using args
        rw [args]
        rfl
    obtain ⟨_, _, -, -, -, -, same⟩ := retained_unchanged rfl made allowed seen
    exact ⟨prepared, rfl, kept, same _ kept rfl⟩

end OscmixDesk
