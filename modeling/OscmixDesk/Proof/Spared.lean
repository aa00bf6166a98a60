/-
**What a reconcile leaves to the device** (`reconcile.py`, `routing.py`).

A later pass plans twice: a first plan decides which links are written, and with them which gains AutoSet owns; the
second leaves those alone too.

* `protectedEntries_congr`, `retainedGains_congr` — what is protected depends on the mutes that are retained, and
  what AutoSet owns on the reports of its dependencies and the input links;
* `mem_prepared` — what the plan of a reconcile leaves alone;
* `Planned.lasting` — its writes are those of the entries it selects, and temporary mutes.
-/

import OscmixDesk.Model.Verify
import OscmixDesk.Proof.Budgets
import OscmixDesk.Proof.Retained

namespace OscmixDesk

open Effects Checks

/-! ### The entries and the links of a desk -/

/-- The registers a configuration asks for. -/
def deskEntries (config : Config) : List Entry :=
  (desired config).toOption.getD []

/-- What every later pass leaves to the device. -/
def rememberedEntries (config : Config) : List Path :=
  ((deskEntries config).filter (isRemembered config)).map (·.path)

/-- The links of a desk that are taken as confirmed. -/
def knownLinks (entries : List Entry) (confirmed : List Path) : List Path :=
  (entries.filter fun entry => entry.phase = .link && confirmed.contains entry.path).map (·.path)

/-- The pairs a desk links. -/
def declaredLinks (config : Config) : List Path :=
  linkedBy (deskEntries config) []

/-- Those of them that a reconcile writes. -/
def writtenLinks (config : Config) (confirmed : List Path) : List Path :=
  linkedBy (deskEntries config) (rememberedEntries config ++ confirmed)

/-- What a reconcile leaves to the device: what is remembered, the gains that AutoSet owns with the links it
writes, and what a retained mute protects behind the links that are confirmed. -/
def spared (config : Config) (result : VerifyResult) : List Path :=
  rememberedEntries config ++ retainedGains config result.latest (writtenLinks config result.confirmed)
    ++ protectedEntries config (rememberedEntries config) result.confirmed

/-- The registers of the desk that are neither spared nor a confirmed link, as writes. -/
def reconciled (config : Config) (result : VerifyResult) : List Write :=
  ((deskEntries config).filter fun entry => !(spared config result
    ++ knownLinks (deskEntries config) result.confirmed).contains entry.path).map (·.write .unconditional)

/-- A switch that the DSP budgets take from the plan: the desk turns it on, and what would run then is over the
budgets. -/
def Withheld (world : World) (config : Config) (result : VerifyResult) (session : Session) (path : Path) : Prop :=
  ∃ limits channels, limitsOf config = some (limits, channels) ∧ IsCounted channels path
    ∧ TurnsOn (reconciled config result) path
    ∧ ¬ WithinBudgets channels (executed (reportedSwitches (observedOutputs world config result.latest session))
      (reconciled config result))

theorem mem_knownLinks {entries : List Entry} {confirmed : List Path} {path : Path} :
    path ∈ knownLinks entries confirmed
      ↔ ∃ entry ∈ entries, entry.path = path ∧ entry.phase = .link ∧ path ∈ confirmed := by
  unfold knownLinks
  rw [List.mem_map]
  constructor
  · rintro ⟨entry, member, rfl⟩
    obtain ⟨inside, holds⟩ := List.mem_filter.mp member
    obtain ⟨link, known⟩ := Bool.and_eq_true_iff.mp holds
    exact ⟨entry, inside, rfl, of_decide_eq_true link, List.contains_iff_mem.mp known⟩
  · rintro ⟨entry, inside, rfl, link, known⟩
    exact ⟨entry, List.mem_filter.mpr ⟨inside, by simp [link, known]⟩, rfl⟩

@[simp] theorem knownLinks_nil (entries : List Entry) : knownLinks entries [] = [] := by
  simp [knownLinks]

theorem mem_linkedBy_iff {entries : List Entry} {skip : List Path} {path : Path} :
    path ∈ linkedBy entries skip ↔ ∃ entry ∈ entries, entry.path = path ∧ entry.phase = .link
      ∧ entry.path ∉ skip ∧ entry.args = [.int 1] := by
  unfold linkedBy
  rw [List.mem_map]
  constructor
  · rintro ⟨entry, member, rfl⟩
    obtain ⟨inside, holds⟩ := List.mem_filter.mp member
    simp only [Bool.and_eq_true, decide_eq_true_eq, Bool.not_eq_true', List.contains_eq_mem,
      decide_eq_false_iff_not] at holds
    exact ⟨entry, inside, rfl, holds.1.1, holds.1.2, holds.2⟩
  · rintro ⟨entry, inside, rfl, link, free, on⟩
    exact ⟨entry, List.mem_filter.mpr ⟨inside, by simp [link, free, on]⟩, rfl⟩

/-! ### What is left alone -/

section Left

variable {config : Config} {retained others confirmed more linked : List Path} {latest reports : Reports}
  {path : Path}

/-- Only the mutes that are retained decide what is protected. -/
theorem protectedEntries_congr
    (positive : ∀ route ∈ config.routes, ∀ channel ∈ route.source.toList, 1 ≤ channel)
    (same : ∀ channel, mutePath channel ∈ retained ↔ mutePath channel ∈ others) :
    path ∈ protectedEntries config retained confirmed ↔ path ∈ protectedEntries config others confirmed := by
  have pairs (left : ℕ) : left ∈ retainedPairs retained ↔ left ∈ retainedPairs others := by
    rw [mem_retainedPairs, mem_retainedPairs]
    exact exists_congr fun channel => by rw [same]
  have guarding : Guarding retained ↔ Guarding others := exists_congr fun channel => by rw [same]
  have guarded (route : Route) : Guarded retained confirmed route ↔ Guarded others confirmed route :=
    or_congr_left (exists_congr fun channel => by rw [same])
  rw [mem_protectedEntries positive, mem_protectedEntries positive, mem_protectedLinks, mem_protectedLinks]
  simp only [pairs, guarding, guarded]

/-- What is protected with more links confirmed is protected. -/
theorem protectedEntries_mono
    (positive : ∀ route ∈ config.routes, ∀ channel ∈ route.source.toList, 1 ≤ channel)
    (fewer : confirmed ⊆ more) (member : path ∈ protectedEntries config retained more) :
    path ∈ protectedEntries config retained confirmed := by
  obtain ⟨guarding, own⟩ := (mem_protectedEntries positive).mp member
  refine (mem_protectedEntries positive).mpr ⟨guarding, own.imp (fun link => ?_) ?_⟩
  · rw [mem_protectedLinks] at link ⊢
    refine link.imp id ?_
    rintro ⟨route, known, same, unknown⟩
    exact ⟨route, known, same, fun yes => unknown (fewer yes)⟩
  · rintro ⟨route, known, guarded, written⟩
    exact ⟨route, known, guarded.imp id fun unknown yes => unknown (fewer yes), written⟩

/-- The gains of one pair that AutoSet owns. -/
def pairGains (config : Config) (latest : Reports) (joined : Bool) (left : ℕ) : List ℕ :=
  let owned := [left, left + 1].filter fun channel =>
    (declaredAutoset config).contains channel || flagValue (latest (autosetPath channel)) ≠ some 0
  if !owned.isEmpty && (joined || flagValue (latest (.link .input left)) ≠ some 0) then [left, left + 1] else owned

theorem retainedGains_eq (config : Config) (latest : Reports) (linked : List Path) :
    retainedGains config latest linked = (autosetPairs config).flatMap fun left =>
      (pairGains config latest (linked.contains (.link .input left)) left).map gainPath := rfl

theorem pairGains_mono {joined joined' : Bool} (fewer : joined = true → joined' = true) (left : ℕ) :
    pairGains config latest joined left ⊆ pairGains config latest joined' left := by
  intro channel member
  unfold pairGains at member ⊢
  dsimp only at member ⊢
  split_ifs at member ⊢ with one other other
  · exact member
  · exact (List.mem_filter.mp member).1
  · refine absurd ?_ one
    rw [Bool.and_eq_true, Bool.or_eq_true] at other ⊢
    exact ⟨other.1, other.2.imp fewer id⟩
  · exact member

theorem retainedGains_mono (fewer : linked ⊆ others) (member : path ∈ retainedGains config latest linked) :
    path ∈ retainedGains config latest others := by
  rw [retainedGains_eq] at member ⊢
  obtain ⟨left, pair, gain⟩ := List.mem_flatMap.mp member
  obtain ⟨channel, own, rfl⟩ := List.mem_map.mp gain
  refine List.mem_flatMap.mpr ⟨left, pair, List.mem_map_of_mem (pairGains_mono (fun yes => ?_) left own)⟩
  exact List.contains_iff_mem.mpr (fewer (List.contains_iff_mem.mp yes))

/-- The gains AutoSet owns are a matter of the reports of its dependencies and of the input links. -/
theorem retainedGains_congr (seen : ∀ path ∈ dependencyPaths config, latest path = reports path)
    (same : ∀ left, Path.link .input left ∈ linked ↔ Path.link .input left ∈ others) :
    retainedGains config latest linked = retainedGains config reports others := by
  rw [retainedGains_eq, retainedGains_eq, List.flatMap_def, List.flatMap_def]
  congr 1
  refine List.map_congr_left fun left pair => ?_
  have depends (path : Path) (own : path ∈ [autosetPath left, autosetPath (left + 1), .link .input left]) :
      latest path = reports path := seen path (List.mem_flatMap.mpr ⟨left, pair, own⟩)
  have joined : linked.contains (Path.link .input left) = others.contains (Path.link .input left) :=
    Bool.eq_iff_iff.mpr (List.contains_iff_mem.trans ((same left).trans List.contains_iff_mem.symm))
  have owned : ([left, left + 1].filter fun channel =>
        (declaredAutoset config).contains channel || flagValue (latest (autosetPath channel)) ≠ some 0)
      = [left, left + 1].filter fun channel =>
        (declaredAutoset config).contains channel || flagValue (reports (autosetPath channel)) ≠ some 0 := by
    refine List.filter_congr fun channel member => ?_
    rw [depends (autosetPath channel) (by simpa [autosetPath] using member)]
  unfold pairGains
  rw [joined, owned, depends (.link .input left) (by simp)]

end Left

/-- What the temporary mutes leave: the writes of the selected entries. -/
theorem Planned.lasting {config : Config} {intent : ApplyIntent} {leaveAlone confirmed skip : List Path}
    {observed : Option Reports} {entries : List Entry} {selected : Plan}
    (planned : Planned config intent leaveAlone confirmed observed entries skip selected) {keep : Write → Bool}
    (apart : ∀ off ∈ selection entries selected.retained, off.phase = .playbackMuteOff
      → keep (prerequisiteOn off) = false) :
    selected.writes.filter keep = (selection entries selected.retained).filter keep := by
  have temporary : (((selection entries selected.retained).filter (·.phase = .playbackMuteOff)).map
      prerequisiteOn).filter keep = [] := by
    refine List.filter_eq_nil_iff.mpr fun write member => ?_
    obtain ⟨off, chosen, rfl⟩ := List.mem_map.mp member
    obtain ⟨selects, isOff⟩ := List.mem_filter.mp chosen
    exact Bool.not_eq_true _ ▸ apart off selects (of_decide_eq_true isOff)
  rw [planned.writes, filter_bucketSort, List.filter_append, temporary, List.nil_append, ← filter_bucketSort]
  congr 1
  exact bucketSort_idem Phase.order_nodup _

/-! ### The plan of a reconcile -/

namespace Generated

variable {config : Config} {entries channels globals : List Entry}

/-- The selected entries stand in the order of the entries. -/
theorem selection_eq (generated : Generated config entries channels globals) (retained : List Path) :
    selection entries retained
      = (entries.filter fun entry => !retained.contains entry.path).map (·.write .unconditional) := by
  have phases : ∀ entry : Entry, (entry.write .unconditional).phase = entry.phase := fun _ => rfl
  unfold selection
  rw [bucketSort_map phases, generated.union, filter_bucketSort, bucketSort_idem Phase.order_nodup]

theorem deskEntries_eq (generated : Generated config entries channels globals) : deskEntries config = entries := by
  unfold deskEntries
  rw [generated.desired]
  rfl

/-- The last write of a register that is no mute is the desk's last word on it. -/
theorem last_planned (generated : Generated config entries channels globals)
    {declared added : List Route} {mirrors : List Mirror} (loaded : Loaded config declared added mirrors)
    {intent : ApplyIntent} {leaveAlone confirmed skip : List Path} {observed : Option Reports} {selected : Plan}
    (planned : Planned config intent leaveAlone confirmed observed entries skip selected) {path : Path}
    (plain : ∀ channel, path ≠ mutePath channel) :
    lastOf Write.path path selected.writes = lastOf Write.path path (selection entries selected.retained) := by
  apply lastOf_congr
  refine planned.lasting fun off selects isOff => ?_
  obtain ⟨-, shape, -⟩ := generated.selected_release loaded selects isOff
  have muted : off.path = mutePath off.channel := congrArg Write.path shape
  exact decide_eq_false fun same => plain off.channel (same.symm.trans muted)

/-- The link of an input pair is not protected. -/
theorem input_link_unprotected {declared added : List Route} {mirrors : List Mirror}
    (loaded : Loaded config declared added mirrors) (retained confirmed : List Path) (left : ℕ) :
    Path.link .input left ∉ protectedEntries config retained confirmed := by
  intro member
  have positive : ∀ route ∈ config.routes, ∀ channel ∈ route.source.toList, 1 ≤ channel :=
    fun route known => loaded.source_positive known
  obtain ⟨-, link | ⟨route, -, -, written⟩⟩ := (mem_protectedEntries positive).mp member
  · rcases mem_protectedLinks.mp link with ⟨_, -, _, -, mute | link⟩ | ⟨_, -, link, -⟩
    · cases mute
    · cases link
    · cases link
  · obtain ⟨message, mix, same⟩ := List.mem_map.mp written
    rcases List.mem_append.mp mix with cell | volume
    · obtain ⟨_, -, _, _, rfl⟩ := mem_cellMessages cell
      cases same
    · obtain ⟨_, -, _, -, rfl⟩ := mem_volumeMessages.mp volume
      cases same

/-- No entry on a mute is in the phase of the links. -/
theorem mute_not_link (generated : Generated config entries channels globals) {declared added : List Route}
    {mirrors : List Mirror} (loaded : Loaded config declared added mirrors) {entry : Entry} (member : entry ∈ entries)
    {channel : ℕ} (same : entry.path = mutePath channel) : entry.phase ≠ .link := by
  intro link
  obtain ⟨own, value, -, -, rfl⟩ := generated.mute_word loaded member (Or.inr (Or.inr ⟨channel, same⟩))
  have phase : mutePhase value = .link := link
  unfold mutePhase at phase
  split_ifs at phase

/-- The input links a plan writes are the pairs the desk links, without those remembered or confirmed. -/
theorem mem_linkedBy (generated : Generated config entries channels globals) {skip confirmed : List Path} {left : ℕ}
    (kept : Path.link .input left ∈ skip ↔ Path.link .input left ∈ rememberedEntries config
      ∨ Path.link .input left ∈ knownLinks entries confirmed) :
    Path.link .input left ∈ linkedBy entries skip ↔ Path.link .input left ∈ writtenLinks config confirmed := by
  unfold writtenLinks
  rw [generated.deskEntries_eq, mem_linkedBy_iff, mem_linkedBy_iff]
  refine exists_congr fun entry => and_congr_right fun member => and_congr_right fun same =>
    and_congr_right fun link => and_congr_left fun _ => not_congr ?_
  rw [same, kept, List.mem_append]
  refine or_congr_right (mem_knownLinks.trans ⟨?_, fun known => ⟨entry, member, same, link, known⟩⟩)
  rintro ⟨_, -, -, -, known⟩
  exact known

/-- The links that a plan writes as linked. -/
theorem mem_linkWrites {intent : ApplyIntent} {leaveAlone confirmed skip : List Path} {observed : Option Reports}
    {selected : Plan} (planned : Planned config intent leaveAlone confirmed observed entries skip selected)
    (path : Path) : path ∈ writePaths (selected.links.filter (·.args = [.int 1]))
      ↔ path ∈ linkedBy entries selected.retained := by
  unfold writePaths Plan.links
  rw [mem_linkedBy_iff, List.mem_map]
  simp only [List.mem_filter, decide_eq_true_eq]
  constructor
  · rintro ⟨write, ⟨⟨member, link⟩, on⟩, rfl⟩
    rcases planned.mem_writes.mp member with chosen | ⟨off, -, -, rfl⟩
    · obtain ⟨entry, inside, free, rfl⟩ := Planned.mem_selection.mp chosen
      exact ⟨entry, inside, rfl, link, free, on⟩
    · cases link
  · rintro ⟨entry, inside, rfl, link, free, on⟩
    have chosen := planned.mem_writes.mpr (Or.inl (Planned.mem_selection.mpr ⟨entry, inside, free, rfl⟩))
    exact ⟨entry.write .unconditional, ⟨⟨chosen, link⟩, on⟩, rfl⟩

/-- A gain is on no link and on no mute. -/
theorem gain_apart {reports : Reports} {linked : List Path} {path : Path}
    (gain : path ∈ retainedGains config reports linked) :
    (∀ left, path ≠ .link .input left) ∧ ∀ channel, path ≠ mutePath channel := by
  obtain ⟨own, rfl⟩ := mem_retainedGains gain
  exact ⟨fun _ => by simp [gainPath, Path.link], fun _ => by simp [gainPath, mutePath]⟩

/-- What a reconcile's plan leaves alone by itself, where its caller leaves alone what is remembered, and gains. -/
theorem mem_left (generated : Generated config entries channels globals) {leaveAlone confirmed skip : List Path}
    {reports : Reports} (left : leftAlone config .reconcile entries leaveAlone confirmed (some reports) = .ok skip)
    (path : Path) : path ∈ skip ↔ path ∈ leaveAlone ∨ path ∈ knownLinks entries confirmed
      ∨ path ∈ rememberedEntries config
      ∨ path ∈ retainedGains config reports (linkedBy entries (leaveAlone ++ knownLinks entries confirmed)) := by
  have preserved : preservedPaths config entries leaveAlone confirmed (some reports) = .ok skip := left
  have remembered : path ∈ rememberedEntries config
      ↔ ∃ entry ∈ entries, entry.path = path ∧ isRemembered config entry := by
    unfold rememberedEntries
    rw [generated.deskEntries_eq]
    simp [and_comm, and_left_comm]
  rw [mem_preservedPaths generated.desired preserved, remembered, mem_knownLinks]
  refine or_congr_right (or_congr_left (exists_congr fun entry => and_congr_right fun _ => and_congr_right ?_))
  rintro rfl
  rfl

/-- The input links that the first plan of a reconcile writes are those that the reconcile writes. -/
theorem mem_firstLinks (generated : Generated config entries channels globals)
    {declared added : List Route} {mirrors : List Mirror} (loaded : Loaded config declared added mirrors)
    {confirmed skip : List Path} {reports : Reports} {first : Plan}
    (planned : Planned config .reconcile [] confirmed (some reports) entries skip first) (left : ℕ) :
    Path.link .input left ∈ writePaths (first.links.filter (·.args = [.int 1]))
      ↔ Path.link .input left ∈ writtenLinks config confirmed := by
  rw [mem_linkWrites planned]
  apply generated.mem_linkedBy
  rw [planned.mem_retained, or_iff_left (input_link_unprotected loaded _ _ _), generated.mem_left planned.left,
    or_iff_right List.not_mem_nil, or_comm]
  refine or_congr_left (or_iff_left fun gain => ?_)
  exact (gain_apart gain).1 left rfl

/-- What the caller of a reconcile's plan leaves alone: what is remembered, and the gains that AutoSet owns with the
links the first plan writes. -/
theorem retainedFor_reconcile (generated : Generated config entries channels globals)
    {confirmed known kept : List Path} {latest : Reports}
    (chosen : retainedFor config .reconcile [] confirmed latest = .ok (kept, known)) :
    confirmed = known ∧ ∃ skip first, Planned config .reconcile [] confirmed (some latest) entries skip first
      ∧ kept = rememberedEntries config
        ++ retainedGains config latest (writePaths (first.links.filter (·.args = [.int 1]))) := by
  unfold retainedFor at chosen
  rw [if_pos (show ApplyIntent.reconcile.preservesRemember = true from rfl)] at chosen
  obtain ⟨first, firstPlan, chosen⟩ := bind_eq_ok.mp chosen
  obtain ⟨others, skip, planned⟩ := applicationPlan_planned firstPlan
  obtain rfl : entries = others := Except.ok.inj (generated.desired.symm.trans planned.desired)
  unfold rememberedPaths at chosen
  rw [generated.desired] at chosen
  have same := Prod.mk.inj (Except.ok.inj chosen)
  refine ⟨same.2, skip, first, planned, same.1.symm.trans ?_⟩
  unfold rememberedEntries
  rw [generated.deskEntries_eq]
  rfl

/-- What a reconcile's plan leaves alone: what is remembered, the gains that AutoSet owns with the links the plan
writes, what a retained mute protects, and the links that are confirmed. -/
theorem mem_prepared (generated : Generated config entries channels globals)
    {declared added : List Route} {mirrors : List Mirror} (loaded : Loaded config declared added mirrors)
    {confirmed : List Path} {latest reports : Reports} {prepared : Prepared}
    (seen : ∀ path ∈ dependencyPaths config, latest path = reports path)
    (made : preparePlan config .reconcile [] confirmed latest = .ok prepared) :
    prepared.latest = latest ∧ ∃ leaveAlone skip,
      Planned config .reconcile leaveAlone confirmed (some latest) entries skip prepared.wanted
      ∧ ∀ path, path ∈ prepared.wanted.retained ↔ path ∈ rememberedEntries config
        ∨ path ∈ retainedGains config reports (writtenLinks config confirmed)
        ∨ path ∈ protectedEntries config (rememberedEntries config) confirmed
        ∨ path ∈ knownLinks entries confirmed := by
  have positive : ∀ route ∈ config.routes, ∀ channel ∈ route.source.toList, 1 ≤ channel :=
    fun route known => loaded.source_positive known
  have gains {linked : List Path}
      (same : ∀ left, Path.link .input left ∈ linked ↔ Path.link .input left ∈ writtenLinks config confirmed) :
      retainedGains config latest linked
        = retainedGains config reports (writtenLinks config confirmed) :=
    retainedGains_congr seen same
  unfold preparePlan at made
  obtain ⟨⟨kept, known⟩, chosen, made⟩ := bind_eq_ok.mp made
  obtain ⟨wanted, wantedPlan, made⟩ := bind_eq_ok.mp made
  obtain rfl := pure_eq_ok.mp made
  obtain ⟨rfl, firstSkip, first, firstPlanned, own⟩ := generated.retainedFor_reconcile chosen
  rw [gains (generated.mem_firstLinks loaded firstPlanned)] at own
  have left (path : Path) : path ∈ kept ↔ path ∈ rememberedEntries config
      ∨ path ∈ retainedGains config reports (writtenLinks config confirmed) := by
    rw [own, List.mem_append]
  obtain ⟨others, skip, planned⟩ := applicationPlan_planned wantedPlan
  obtain rfl : entries = others := Except.ok.inj (generated.desired.symm.trans planned.desired)
  have again (number : ℕ) : Path.link .input number ∈ linkedBy entries (kept ++ knownLinks entries confirmed)
      ↔ Path.link .input number ∈ writtenLinks config confirmed := by
    apply generated.mem_linkedBy
    rw [List.mem_append, left]
    exact or_congr_left (or_iff_left fun gain => (gain_apart gain).1 number rfl)
  have skipped (path : Path) : path ∈ skip ↔ path ∈ rememberedEntries config
      ∨ path ∈ retainedGains config reports (writtenLinks config confirmed)
      ∨ path ∈ knownLinks entries confirmed := by
    rw [generated.mem_left planned.left, left, gains again, or_left_comm, or_self, or_comm, or_assoc]
  have muted (channel : ℕ) : mutePath channel ∈ skip ↔ mutePath channel ∈ rememberedEntries config := by
    rw [skipped]
    refine or_iff_left ?_
    rintro (gain | link)
    · exact (gain_apart gain).2 channel rfl
    · obtain ⟨entry, member, same, link, -⟩ := mem_knownLinks.mp link
      exact generated.mute_not_link loaded member same link
  refine ⟨rfl, kept, skip, planned, fun path => ?_⟩
  rw [planned.mem_retained, skipped, protectedEntries_congr positive muted, or_assoc, or_assoc]
  exact or_congr_right (or_congr_right or_comm)

/-- The plan a reconcile is prepared with. -/
theorem gather_prepared {world : World} {confirmed : List Path} {latest : Reports} {prepared : Prepared}
    {start middle : Session}
    (gathered : gather world config .reconcile [] confirmed (some latest) start = (.ok prepared, middle)) :
    preparePlan config .reconcile [] confirmed latest = .ok prepared ∧ middle = start := by
  have ends : Ends (gather world config .reconcile [] confirmed (some latest)) start
      (fun prepared middle => preparePlan config .reconcile [] confirmed latest = .ok prepared ∧ middle = start)
      fun _ _ => True := by
    unfold gather planned
    rw [ends_bind, ends_lift]
    refine ⟨fun _ _ => ?_, fun _ _ => trivial⟩
    dsimp only
    rw [ends_bind, ends_pure, ends_lift]
    exact ⟨fun prepared known => ⟨mapError_eq_ok.mp known, rfl⟩, fun _ _ => trivial⟩
  exact ends.returned gathered

/-- What passes the checks is what the DSP budgets leave of the plan. -/
theorem vet_limits {world : World} {prepared : Prepared} {submitted : Plan} {start stop : Session}
    (vetted : vet world config .reconcile prepared start = (.ok submitted, stop)) :
    withinDspLimits world config prepared.wanted prepared.latest .reconcile start = (.ok submitted, stop) := by
  obtain ⟨wanted, retained, confirmed, latest⟩ := prepared
  have limited : Ends (withinDspLimits world config wanted latest .reconcile) start
      (fun plan last => withinDspLimits world config wanted latest .reconcile start = (.ok plan, last))
      fun _ _ => True :=
    (ends_self _ start).imp (fun _ _ run => run) fun _ _ _ => trivial
  have ends : Ends (vet world config .reconcile ⟨wanted, retained, confirmed, latest⟩) start
      (fun plan last => withinDspLimits world config wanted latest .reconcile start = (.ok plan, last))
      fun _ _ => True := by
    unfold vet planned
    dsimp only
    rw [ends_bind, ends_lift]
    refine ⟨fun problem _ => ?_, fun _ _ => trivial⟩
    cases problem with
    | some problem => trivial
    | none =>
        show Ends (if wanted.autosetOff.isEmpty = true then _ else _) start _ _
        rw [ends_ite]
        refine ⟨fun _ => ?_, fun _ => limited⟩
        unfold refuseGains planned
        rw [ends_bind, ends_bind, ends_lift]
        refine ⟨fun problem _ => ?_, fun _ _ => trivial⟩
        cases problem with
        | some problem => trivial
        | none => exact limited
  exact ends.returned vetted

/-- A switch is withheld from the plan exactly when the budgets take it. -/
theorem withheld_iff (generated : Generated config entries channels globals)
    {declared added : List Route} {mirrors : List Mirror} (loaded : Loaded config declared added mirrors)
    {world : World} {result : VerifyResult} {start : Session} {leaveAlone confirmed skip : List Path}
    {observed : Option Reports} {wanted : Plan}
    (planned : Planned config .reconcile leaveAlone confirmed observed entries skip wanted)
    (kept : ∀ path, path ∈ wanted.retained ↔ path ∈ spared config result
      ∨ path ∈ knownLinks entries result.confirmed)
    (path : Path) : Withheld world config result start path ↔ ∃ limits channels,
      limitsOf config = some (limits, channels) ∧ IsCounted channels path ∧ TurnsOn wanted.writes path
        ∧ ¬ WithinBudgets channels (executed (reportedSwitches
          (observedOutputs world config result.latest start)) wanted.writes) := by
  have same : selection entries wanted.retained = reconciled config result := by
    unfold reconciled
    rw [generated.selection_eq, generated.deskEntries_eq]
    congr 1
    refine List.filter_congr fun entry _ => congrArg _ (Bool.eq_iff_iff.mpr ?_)
    rw [List.contains_iff_mem, List.contains_iff_mem, kept, List.mem_append]
  have last (option : String) (channel : ℕ) : lastOf Write.path (outputSwitch option channel) wanted.writes
      = lastOf Write.path (outputSwitch option channel) (reconciled config result) := by
    rw [generated.last_planned loaded planned fun _ => by simp [outputSwitch, mutePath], same]
  have alike (switches : Path → ℤ) (option : String) (channel : ℕ) :
      executed switches wanted.writes (outputSwitch option channel)
        = executed switches (reconciled config result) (outputSwitch option channel) := by
    rw [executed_apply, executed_apply, last]
  unfold Withheld
  refine exists_congr fun limits => exists_congr fun channels => and_congr_right fun _ =>
    and_congr_right fun counted => and_congr ?_ (not_congr (withinBudgets_congr (alike _)).symm)
  obtain ⟨option, -, channel, -, rfl⟩ := counted
  unfold TurnsOn
  rw [last]

/-- What a reconcile submits of the registers that its read-back does not confirm. -/
theorem mem_submits (generated : Generated config entries channels globals)
    {declared added : List Route} {mirrors : List Mirror} (loaded : Loaded config declared added mirrors)
    {world : World} {result : VerifyResult} {prepared : Prepared} {submitted : Plan} {start middle stop : Session}
    (gathered : gather world config .reconcile [] result.confirmed (some result.latest) start
      = (.ok prepared, middle))
    (vetted : vet world config .reconcile prepared middle = (.ok submitted, stop)) {path : Path}
    (known : ∃ entry ∈ entries, entry.path = path) (unconfirmed : path ∉ result.confirmed) :
    path ∈ submitted.writes.map (·.path)
      ↔ path ∉ spared config result ∧ ¬ Withheld world config result start path := by
  obtain ⟨made, rfl⟩ := gather_prepared gathered
  obtain ⟨latest, leaveAlone, skip, planned, kept⟩ := generated.mem_prepared loaded (fun _ _ => rfl) made
  have kept (path : Path) : path ∈ prepared.wanted.retained
      ↔ path ∈ spared config result ∨ path ∈ knownLinks entries result.confirmed := by
    unfold spared
    rw [kept, List.mem_append, List.mem_append, or_assoc, or_assoc]
  have free : path ∉ knownLinks entries result.confirmed := by
    intro link
    obtain ⟨-, -, -, -, known⟩ := mem_knownLinks.mp link
    exact unconfirmed known
  rw [mem_submitted world (vet_limits vetted), latest, ← generated.withheld_iff loaded planned kept]
  refine and_congr_left fun _ => ?_
  rw [List.mem_map, planned.written_iff, and_iff_left known, kept, or_iff_left free]

end Generated

end OscmixDesk
