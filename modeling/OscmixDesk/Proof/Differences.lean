/-
**What `--diff` shows of what differs.**

Every entry of an accepted desk that a reading contradicts is counted, and one of the phases of links, of the mix
matrix or of channel state is listed (`listing_perm`). The only other entries that are compared at all are AutoSet
switches (`phase_cases`), as the mute of a playback channel is never reported; so the listing is whole
exactly where the reading has every AutoSet switch as the desk declares it, and no register is listed twice unless
two words of the file are for it (`Listable`).
-/

import OscmixDesk.Model.Diff
import OscmixDesk.Proof.OneValue

set_option maxRecDepth 100000

namespace OscmixDesk

open Checks

namespace Diff

/-! ### What was printed -/

/-- The registers that are listed. -/
def listed (printed : List Printed) : List Write :=
  printed.filterMap fun line =>
    match line with
    | .register write _ => some write
    | _ => none

/-- The number that is announced. -/
def announced : List Printed → ℕ
  | .announce count :: _ => count
  | _ => 0

/-- The writes of a plan for what differs. -/
def differing (plan : Plan) : List Write :=
  plan.writes.filter (·.reason ≠ .rewrite)

/-- The listed phases. -/
def shownPhases : List Phase :=
  phaseNames.map Prod.fst

/-- The listing, heading by heading. -/
def listing (writes : List Write) : List Write :=
  shownPhases.flatMap fun phase => (writes.filter (·.phase = phase)).insertionSort fun first second =>
    first.path.render ≤ second.path.render

theorem listed_append (first second : List Printed) : listed (first ++ second) = listed first ++ listed second :=
  List.filterMap_append

theorem listed_listPhase (seen : Reading) (writes : List Write) (phase : Phase × String) :
    listed (listPhase seen writes phase) = (writes.filter (·.phase = phase.1)).insertionSort
      fun first second => first.path.render ≤ second.path.render := by
  unfold listPhase
  dsimp only
  split_ifs with none
  · rw [List.isEmpty_iff.mp none]
    rfl
  · unfold listed
    rw [List.filterMap_cons, List.filterMap_map]
    exact List.filterMap_some

theorem listed_phases (seen : Reading) (writes : List Write) :
    listed (phaseNames.flatMap (listPhase seen writes)) = listing writes := by
  unfold listing shownPhases
  rw [List.flatMap_map]
  unfold listed
  rw [List.filterMap_flatMap]
  exact List.flatMap_congr fun phase _ => listed_listPhase seen writes phase

/-- What is printed of a reading. -/
theorem diff_eq {config : Config} {entries : List Entry} (read : desired config = .ok entries) (seen : Reading) :
    ∃ printed, diff config (some seen)
        = .ok (if (differing (plan entries (some seen.get?) (deviceForName config.deviceName))).isEmpty then exitOk
          else exitDiffers, printed)
      ∧ listed printed = listing (differing (plan entries (some seen.get?) (deviceForName config.deviceName)))
      ∧ announced printed
        = (differing (plan entries (some seen.get?) (deviceForName config.deviceName))).length := by
  unfold diff
  dsimp only
  rw [read]
  refine ⟨_, rfl, ?_⟩
  unfold differing
  generalize plan entries (some seen.get?) (deviceForName config.deviceName) = result
  generalize result.writes.filter (·.reason ≠ .rewrite) = writes
  have rest : listed (if (result.writes.filter (·.reason = .rewrite)).isEmpty then []
      else [.rewritten (result.writes.filter (·.reason = .rewrite)).length]) = [] := by
    split_ifs <;> rfl
  rw [listed_append, rest, List.append_nil]
  by_cases none : writes.isEmpty
  · obtain rfl := List.isEmpty_iff.mp none
    exact ⟨rfl, rfl⟩
  · rw [if_neg none]
    exact ⟨listed_phases seen writes, rfl⟩

/-! ### The listing -/

theorem listing_perm_bucketSort (writes : List Write) :
    (listing writes).Perm (bucketSort shownPhases Write.phase writes) :=
  List.Perm.flatMap_left _ fun _ _ => List.perm_insertionSort _ _

theorem mem_listing {writes : List Write} {write : Write} :
    write ∈ listing writes ↔ write ∈ writes ∧ write.phase ∈ shownPhases := by
  rw [(listing_perm_bucketSort writes).mem_iff]
  unfold bucketSort
  simp only [List.mem_flatMap, List.mem_filter, decide_eq_true_eq]
  constructor
  · rintro ⟨phase, shown, member, rfl⟩
    exact ⟨member, shown⟩
  · rintro ⟨member, shown⟩
    exact ⟨_, shown, member, rfl⟩

/-- The listing is whole exactly where nothing differs in another phase. -/
theorem listing_perm {writes : List Write} :
    (listing writes).Perm writes ↔ ∀ write ∈ writes, write.phase ∈ shownPhases := by
  constructor
  · intro whole write member
    exact (mem_listing.mp (whole.mem_iff.mpr member)).2
  · intro shown
    exact (listing_perm_bucketSort writes).trans (perm_bucketSort _ _ _ (by decide) shown)

/-- The listing is in the order of the phases. -/
theorem listing_ordered (writes : List Write) :
    (listing writes).Pairwise fun first second => first.phase.number ≤ second.phase.number := by
  have phases {phase : Phase} {write : Write} (member : write ∈ (writes.filter (·.phase = phase)).insertionSort
      fun first second => first.path.render ≤ second.path.render) : write.phase = phase := by
    have inside := (List.perm_insertionSort _ _).mem_iff.mp member
    simpa using (List.mem_filter.mp inside).2
  unfold listing
  rw [List.flatMap_def, List.pairwise_flatten]
  constructor
  · rintro _ bucket
    obtain ⟨phase, -, rfl⟩ := List.mem_map.mp bucket
    refine List.pairwise_of_forall_mem_list fun first here second there => ?_
    rw [phases here, phases there]
  · rw [List.pairwise_map]
    have sorted : shownPhases.Pairwise fun first second => first.number ≤ second.number := by decide
    refine sorted.imp fun {phase phase'} ahead first here second there => ?_
    rw [phases here, phases there]
    exact ahead

/-! ### What differs -/

/-- Whether an entry is compared with a reading and not found in it. -/
def Differs (seen : Reading) (device : Option Device) (entry : Entry) : Prop :=
  compare (some seen.get?) device none entry ≠ none
    ∧ compare (some seen.get?) device none entry ≠ some .rewrite

instance (seen : Reading) (device : Option Device) (entry : Entry) : Decidable (Differs seen device entry) :=
  inferInstanceAs (Decidable (_ ∧ _))

section Plan

variable {entries : List Entry} {seen : Reading} {device : Option Device}

theorem mem_differing {write : Write} : write ∈ differing (plan entries (some seen.get?) device) ↔
    ∃ entry ∈ entries, Differs seen device entry ∧ ∃ reason,
      compare (some seen.get?) device none entry = some reason ∧ write = entry.write reason := by
  have complete : ∀ item ∈ entries.filterMap fun entry =>
      (compare (some seen.get?) device none entry).map entry.write, item.phase ∈ Phase.order :=
    fun item _ => Phase.mem_order item.phase
  unfold differing plan
  dsimp only
  rw [List.mem_filter, mem_bucketSort _ _ _ complete, List.mem_filterMap]
  constructor
  · rintro ⟨⟨entry, member, written⟩, compared⟩
    obtain ⟨reason, known, rfl⟩ := Option.map_eq_some_iff.mp written
    refine ⟨entry, member, ⟨?_, ?_⟩, reason, known, rfl⟩
    · rw [known]
      exact Option.some_ne_none reason
    · rw [known]
      rintro same
      obtain rfl := Option.some_inj.mp same
      simp [Entry.write] at compared
  · rintro ⟨entry, member, ⟨-, compared⟩, reason, known, rfl⟩
    refine ⟨⟨entry, member, by rw [known]; rfl⟩, ?_⟩
    rw [known] at compared
    exact decide_eq_true fun same => compared (congrArg some same)

/-- The registers that differ are those of the entries that do. -/
theorem differing_paths : ((differing (plan entries (some seen.get?) device)).map (·.path)).Perm
    ((entries.filter fun entry => Differs seen device entry).map (·.path)) := by
  have sorted : (plan entries (some seen.get?) device).writes.Perm (entries.filterMap fun entry =>
      (compare (some seen.get?) device none entry).map entry.write) :=
    perm_bucketSort _ _ _ Phase.order_nodup fun item _ => Phase.mem_order item.phase
  have each (entries : List Entry) : ((entries.filterMap fun entry =>
      (compare (some seen.get?) device none entry).map entry.write).filter (·.reason ≠ .rewrite)).map (·.path)
        = (entries.filter fun entry => Differs seen device entry).map (·.path) := by
    induction entries with
    | nil => rfl
    | cons entry entries ih =>
        cases known : compare (some seen.get?) device none entry with
        | none =>
            have same : ¬ Differs seen device entry := fun differs => differs.1 known
            rw [List.filterMap_cons_none (by rw [known]; rfl), List.filter_cons_of_neg (by simpa using same), ih]
        | some reason =>
            rw [List.filterMap_cons_some (by rw [known]; rfl)]
            by_cases rewrite : reason = .rewrite
            · have same : ¬ Differs seen device entry := fun differs => differs.2 (rewrite ▸ known)
              have dropped : ¬ decide ((entry.write reason).reason ≠ .rewrite) = true := fun other =>
                of_decide_eq_true other rewrite
              rw [List.filter_cons, List.filter_cons, if_neg dropped, if_neg (by simpa using same), ih]
            · have other : Differs seen device entry := by
                unfold Differs
                rw [known]
                exact ⟨Option.some_ne_none reason, fun same => rewrite (Option.some_inj.mp same)⟩
              have kept : decide ((entry.write reason).reason ≠ .rewrite) = true := decide_eq_true rewrite
              rw [List.filter_cons, List.filter_cons, if_pos kept, if_pos (by simpa using other), List.map_cons,
                List.map_cons, ih]
              rfl
  rw [← each]
  exact (sorted.filter _).map _

end Plan

/-! ### What the tables say of a switch -/

/-- Whether a row that ends in `autoset` is the reported switch of an input, and the mute of a playback channel is
not reported. -/
def switched (row : Register) : Bool :=
  match row.template with
  | .channel family setting =>
      if family = .playback then setting ≠ .flat "mute" || row.verify = .reestablished
      else setting.last ≠ "autoset"
        || (setting = .flat "autoset" && row.domain = some .bool && row.verify = .verifiable)
  | .global _ option => option ≠ some "autoset"
  | .mix _ => true

theorem deviceForName_switched {name : String} {device : Device} (named : deviceForName name = some device)
    {row : Register} (member : row ∈ device.registers) : switched row = true := by
  have all : ∀ row ∈ device.registers, switched row = true := by
    rcases deviceForName_cases named with rfl | rfl
    · decide +kernel
    · decide +kernel
  exact all row member

/-- How a path verifies, where all rows of its template verify alike. -/
theorem verifyClass_eq {device : Device} {path : Path} {row : Register} {verify : VerifyClass}
    (member : row ∈ device.registers) (template : row.template = path.template)
    (alike : ∀ row ∈ device.registers, row.template = path.template → row.verify = verify) :
    verifyClass (some device) path = some verify := by
  unfold verifyClass
  rw [Option.bind_some]
  cases found : device.registers.find? (·.template = path.template) with
  | none =>
      have absent := List.find?_eq_none.mp found row member
      simp [template] at absent
  | some own =>
      have same : own.template = path.template := by simpa using List.find?_some found
      exact congrArg some (alike own (List.mem_of_find?_eq_some found) same)

/-- An option of a `[<family>]` section is the last word of its row, or the family's switch. -/
theorem settableGlobals_template {device : Device} {family option : String} {row : Register}
    (found : (settableGlobals (some device) family).lookup option = some row) :
    (option = enableOption ∧ row.template = .global family none) ∨ row.template = .global family (some option) := by
  have member := mem_of_lookup found
  unfold settableGlobals at member
  obtain ⟨own, known, chosen⟩ := List.mem_filterMap.mp member
  split at chosen
  · cases chosen
  · split at chosen
    · next template =>
        split_ifs at chosen with same
        cases chosen
        exact Or.inl ⟨rfl, same ▸ template⟩
    · next template =>
        split_ifs at chosen with same
        cases chosen
        exact Or.inr (same ▸ template)
    · cases chosen

/-! ### The phases of a desk -/

section Desk

variable {config : Config} {entries channels globals : List Entry} {seen : Reading}

/-- No setting without a channel is in a phase of its own. -/
theorem global_phase {device : Device} (modelled : deviceForName config.deviceName = some device)
    {setting : GlobalSetting} {entry : Entry} (written : GloballyWrittenAs device setting entry) :
    entry.phase = .channel := by
  obtain ⟨-, row, resolved, -, content⟩ := written
  cases content with
  | named _ _ _ _ _ _ phase => exact phase
  | quantity _ _ _ _ _ phase => exact phase
  | whole number _ _ _ _ phase =>
      have other : setting.option ≠ "autoset" := by
        rcases settableGlobals_template resolved with ⟨enable, -⟩ | template
        · rw [enable]
          decide
        · have known := deviceForName_switched modelled (settableGlobals_row resolved)
          rw [switched, template] at known
          simpa using known
      have ends : setting.path.endsWith "autoset" = false := by
        unfold GlobalSetting.path Path.endsWith
        split_ifs
        · rfl
        · simpa using other
      have outside : setting.path.inFamily .playback = false := by
        obtain ⟨family, option, path⟩ := globalPath_shape setting
        rw [path]
        rfl
      rw [phase]
      unfold settingPhase
      rw [outside, ends]
      rfl

/-- A channel setting is in the phase of channel state, unless it is an AutoSet switch or a mute of playback. -/
theorem channel_phase {device : Device} (modelled : deviceForName config.deviceName = some device)
    {setting : ChannelSetting} {entry : Entry} (written : WrittenAs device setting entry) :
    entry.phase = .channel ∨ setting.option = .flat "autoset"
      ∨ verifyClass (some device) setting.path = some .reestablished := by
  obtain ⟨-, row, resolved, -, content⟩ := written
  obtain ⟨member, template, settable, -⟩ := optionRegister_eq_some resolved
  cases content with
  | named _ _ _ _ _ _ phase => exact Or.inl phase
  | quantity _ _ _ _ _ phase => exact Or.inl phase
  | whole number _ _ _ _ phase =>
      by_cases family : setting.family = .playback
      · rw [family] at template
        obtain ⟨mute, -, -⟩ := (deviceForName_tabled modelled).playback_mute member template
          (Option.isSome_iff_ne_none.mp settable)
        have path : setting.path.template = .channel .playback (.flat "mute") := by
          unfold ChannelSetting.path
          rw [family, mute]
          rfl
        refine Or.inr (Or.inr (verifyClass_eq member ?_ fun other inside same => ?_))
        · rw [path, template, mute]
        · rw [path] at same
          have known := deviceForName_switched modelled inside
          rw [switched, same] at known
          simpa using known
      · have outside : setting.path.inFamily .playback = false := by
          unfold ChannelSetting.path Path.inFamily
          simpa using family
        have known := deviceForName_switched modelled member
        rw [switched, template] at known
        dsimp only at known
        rw [if_neg family] at known
        by_cases ends : setting.option.last = "autoset"
        · have switch : setting.option = .flat "autoset" := by
            simp only [ends, ne_eq, not_true_eq_false, decide_false, Bool.false_or, Bool.and_eq_true,
              decide_eq_true_eq] at known
            exact known.1.1
          exact Or.inr (Or.inl switch)
        · refine Or.inl (phase.trans ?_)
          have other : setting.path.endsWith "autoset" = false := by
            unfold ChannelSetting.path Path.endsWith
            simpa using ends
          unfold settingPhase
          rw [outside, other]
          rfl

/-- What an AutoSet switch writes, and that it is compared with what is reported. -/
theorem autoset_entry {device : Device} (modelled : deviceForName config.deviceName = some device)
    {setting : ChannelSetting} {entry : Entry} (written : WrittenAs device setting entry)
    (switch : setting.option = .flat "autoset") :
    ∃ number, integer setting.value = .ok number ∧ entry.tags = "i" ∧ entry.args = [.int number]
      ∧ entry.phase ∉ shownPhases ∧ verifyClass (some device) setting.path = some .verifiable := by
  obtain ⟨-, row, resolved, read, content⟩ := written
  obtain ⟨member, template, settable, -⟩ := optionRegister_eq_some resolved
  have notPlayback : setting.family ≠ .playback := by
    intro family
    rw [family, switch] at template
    obtain ⟨mute, -, -⟩ := (deviceForName_tabled modelled).playback_mute member template
      (Option.isSome_iff_ne_none.mp settable)
    exact absurd mute (by decide)
  have path : setting.path.template = .channel setting.family (.flat "autoset") := by
    unfold ChannelSetting.path
    rw [switch]
    rfl
  have facts {other : Register} (inside : other ∈ device.registers)
      (same : other.template = .channel setting.family (.flat "autoset")) :
      other.domain = some .bool ∧ other.verify = .verifiable := by
    have known := deviceForName_switched modelled inside
    rw [switched, same] at known
    dsimp only at known
    rw [if_neg notPlayback] at known
    simpa [Setting.last] using known
  have verify : verifyClass (some device) setting.path = some .verifiable :=
    verifyClass_eq member (by rw [path, template, switch]) fun other inside same =>
      (facts inside (same.trans path)).2
  have bool : row.domain = some .bool := (facts member (switch ▸ template)).1
  unfold ReadFor at read
  rw [bool] at read
  have ends : setting.path.endsWith "autoset" = true := by
    unfold ChannelSetting.path Path.endsWith
    rw [switch]
    rfl
  have outside : setting.path.inFamily .playback = false := by
    unfold ChannelSetting.path Path.inFamily
    simpa using notPlayback
  cases content with
  | named name _ held _ _ _ _ =>
      rcases read with zero | one
      · rw [held] at zero
        cases zero
      · rw [held] at one
        cases one
  | quantity number held _ _ _ _ =>
      rcases read with zero | one
      · rw [held] at zero
        cases zero
      · rw [held] at one
        cases one
  | whole number held _ tags args phase =>
      refine ⟨number, held, tags, args, ?_, verify⟩
      rw [phase]
      unfold settingPhase
      rw [outside, ends, Bool.false_and, if_neg Bool.false_ne_true, if_pos rfl]
      split_ifs <;> decide

/-- An entry is in a phase of the listing, or never reported, or an AutoSet switch of a section. -/
theorem phase_cases (generated : Generated config entries channels globals) {entry : Entry}
    (member : entry ∈ entries) : entry.phase ∈ shownPhases
      ∨ verifyClass (deviceForName config.deviceName) entry.path = some .reestablished
      ∨ ∃ setting ∈ config.channels, setting.option = .flat "autoset" ∧ ∃ device,
        deviceForName config.deviceName = some device ∧ WrittenAs device setting entry := by
  rcases generated.mem_iff.mp member with routed | silent | channel | global
  · obtain ⟨route, -, ⟨message, -, rfl⟩ | ⟨message, -, rfl⟩⟩ :=
      (mem_producedEntries config.routes).mp (mem_produced config.routes routed)
    · exact Or.inl (by decide : Phase.link ∈ shownPhases)
    · exact Or.inl (by decide : Phase.mix ∈ shownPhases)
  · rw [(silent_shape silent).2.1]
    exact Or.inl (by decide)
  · obtain ⟨setting, known, device, modelled, written⟩ := exists_left generated.channels channel
    rcases channel_phase modelled written with phase | switch | class'
    · rw [phase]
      exact Or.inl (by decide)
    · exact Or.inr (Or.inr ⟨setting, known, switch, device, modelled, written⟩)
    · rw [modelled, written.1.path]
      exact Or.inr (Or.inl class')
  · obtain ⟨setting, -, device, modelled, written⟩ := exists_left generated.globals global
    rw [global_phase modelled written]
    exact Or.inl (by decide)

end Desk

/-! ### The listing and the plan -/

/-- What was printed and returned, beside the writes for what differs. -/
structure Shows (writes : List Write) (code : ℕ) (printed : List Printed) : Prop where
  whole : (listed printed).Perm writes
  once : ((listed printed).map (·.path)).Nodup
  ordered : (listed printed).Pairwise fun first second => first.phase.number ≤ second.phase.number
  counted : announced printed = (listed printed).length
  code : code = exitDiffers ↔ writes ≠ []

/-- `--diff` shows every difference between a desk and a reading. -/
def ShowsEvery (config : Config) (seen : Reading) : Prop :=
  ∃ entries code printed, desired config = .ok entries ∧ diff config (some seen) = .ok (code, printed)
    ∧ Shows (differing (plan entries (some seen.get?) (deviceForName config.deviceName))) code printed

/-- An AutoSet switch is reported as the desk declares it. -/
def Reported (config : Config) (seen : Reading) (setting : ChannelSetting) : Prop :=
  ∃ number args, integer setting.value = .ok number ∧ seen.get? setting.path = some args
    ∧ matchesReport "i" [.int number] args none
      (registerAt (deviceForName config.deviceName) setting.path) = true

/-- Every AutoSet switch is reported as declared, and no two words of the desk for one register both differ. -/
structure Listable (config : Config) (seen : Reading) : Prop where
  autoset : ∀ setting ∈ config.channels, setting.option = .flat "autoset" → Reported config seen setting
  words : ∀ entries, desired config = .ok entries → entries.Pairwise fun first second =>
    first.path = second.path → ¬ (Differs seen (deviceForName config.deviceName) first
      ∧ Differs seen (deviceForName config.deviceName) second)

section Listing

variable {config : Config} {entries channels globals : List Entry} {seen : Reading}

/-- A compared register that is not in the reading. -/
theorem compare_missing {device : Option Device} {entry : Entry}
    (verify : verifyClass device entry.path = some .verifiable) (compared : entry.compared = true)
    (reported : seen.get? entry.path = none) : compare (some seen.get?) device none entry = some .missing := by
  unfold compare
  dsimp only
  rw [reported, verify, compared, ite_self, if_neg (by simp)]

theorem compare_reported {device : Option Device} {entry : Entry} {got : Args}
    (verify : verifyClass device entry.path = some .verifiable) (compared : entry.compared = true)
    (reported : seen.get? entry.path = some got) : compare (some seen.get?) device none entry
      = if matchesReport entry.tags entry.args got none (registerAt device entry.path) = true then none
        else some .mismatched := by
  unfold compare
  dsimp only
  rw [reported, verify, compared, ite_self, if_neg (by simp)]

/-- An AutoSet switch differs exactly where it is not reported as declared. -/
theorem autoset_differs {device : Device} (modelled : deviceForName config.deviceName = some device)
    {setting : ChannelSetting} {entry : Entry} (written : WrittenAs device setting entry)
    (switch : setting.option = .flat "autoset") :
    Differs seen (deviceForName config.deviceName) entry ↔ ¬ Reported config seen setting := by
  obtain ⟨number, held, tags, args, -, verify⟩ := autoset_entry modelled written switch
  have class' : verifyClass (deviceForName config.deviceName) entry.path = some .verifiable := by
    rw [modelled, written.1.path]
    exact verify
  unfold Differs Reported
  cases reported : seen.get? setting.path with
  | none =>
      rw [compare_missing class' written.1.compared (written.1.path ▸ reported)]
      refine ⟨fun _ => ?_, fun _ => by decide⟩
      rintro ⟨_, args, -, known, -⟩
      cases known
  | some got =>
      rw [compare_reported class' written.1.compared (written.1.path ▸ reported), tags, args, written.1.path]
      split_ifs with agrees
      · exact ⟨fun differs => absurd rfl differs.1, fun missing => absurd ⟨number, got, held, rfl, agrees⟩ missing⟩
      · refine ⟨fun _ => ?_, fun _ => by decide⟩
        rintro ⟨other, args, read, known, holds⟩
        obtain rfl := Option.some_inj.mp known
        obtain rfl : other = number := Except.ok.inj (read.symm.trans held)
        exact agrees holds

/-- What is never reported does not differ. -/
theorem not_differs {device : Option Device} {entry : Entry}
    (verify : verifyClass device entry.path = some .reestablished) : ¬ Differs seen device entry := by
  rintro ⟨-, other⟩
  apply other
  unfold compare
  cases device with
  | none => cases verify
  | some device =>
      rw [verify]
      rfl

/-- Everything that differs is listed exactly where no AutoSet switch differs. -/
theorem listed_iff (generated : Generated config entries channels globals) :
    (∀ write ∈ differing (plan entries (some seen.get?) (deviceForName config.deviceName)),
      write.phase ∈ shownPhases)
      ↔ ∀ setting ∈ config.channels, setting.option = .flat "autoset" → Reported config seen setting := by
  constructor
  · intro shown setting known switch
    obtain ⟨entry, member, device, modelled, written⟩ := exists_right generated.channels known
    by_contra missing
    have differs := (autoset_differs modelled written switch).mpr missing
    obtain ⟨reason, compared⟩ := Option.ne_none_iff_exists'.mp differs.1
    have inside : entry ∈ entries := generated.mem_iff.mpr (Or.inr (Or.inr (Or.inl member)))
    obtain ⟨-, -, -, -, hidden, -⟩ := autoset_entry modelled written switch
    exact hidden (shown _ (mem_differing.mpr ⟨entry, inside, differs, reason, compared, rfl⟩))
  · intro reported write member
    obtain ⟨entry, inside, differs, reason, -, rfl⟩ := mem_differing.mp member
    rcases phase_cases generated inside with phase | never | ⟨setting, known, switch, device, modelled, written⟩
    · exact phase
    · exact absurd differs (not_differs never)
    · exact absurd (reported setting known switch) ((autoset_differs modelled written switch).mp differs)

/-- No register is listed twice exactly where no two words for one differ. -/
theorem differing_nodup : ((differing (plan entries (some seen.get?) (deviceForName config.deviceName))).map
      (·.path)).Nodup
    ↔ entries.Pairwise fun first second => first.path = second.path →
      ¬ (Differs seen (deviceForName config.deviceName) first
        ∧ Differs seen (deviceForName config.deviceName) second) := by
  rw [differing_paths.nodup_iff, List.Nodup, List.pairwise_map, List.pairwise_filter]
  refine ⟨fun apart => apart.imp ?_, fun apart => apart.imp ?_⟩
  · rintro first second different same ⟨one, two⟩
    exact different (decide_eq_true one) (decide_eq_true two) same
  · intro first second never one two same
    exact never same ⟨of_decide_eq_true one, of_decide_eq_true two⟩

end Listing

/-- **`--diff` shows every difference** of an accepted desk to a reading exactly where the reading has every AutoSet
switch as declared, and contradicts no two words of the desk for one register. -/
theorem showsEvery_iff {config : Config} (accepted : Accepted config) (seen : Reading) :
    ShowsEvery config seen ↔ Listable config seen := by
  obtain ⟨declared, added, mirrors, loaded⟩ := accepted.loaded
  obtain ⟨entries, channels, globals, generated⟩ := loaded.generated
  obtain ⟨printed, run, lists, announces⟩ := diff_eq generated.desired seen
  constructor
  · rintro ⟨others, code, output, read, ran, whole, once, -, -, -⟩
    obtain rfl : entries = others := Except.ok.inj (generated.desired.symm.trans read)
    obtain ⟨rfl, rfl⟩ := Prod.mk.inj (Except.ok.inj (run.symm.trans ran))
    refine ⟨(listed_iff generated).mp (listing_perm.mp (lists ▸ whole)), fun others read => ?_⟩
    obtain rfl : entries = others := Except.ok.inj (generated.desired.symm.trans read)
    exact differing_nodup.mp ((whole.map _).nodup_iff.mp once)
  · rintro ⟨autoset, words⟩
    have whole := listing_perm.mpr ((listed_iff generated).mpr autoset)
    refine ⟨entries, _, printed, generated.desired, run, ?_, ?_, ?_, ?_, ?_⟩
    · rw [lists]
      exact whole
    · rw [lists]
      exact (whole.map _).nodup_iff.mpr (differing_nodup.mpr (words entries generated.desired))
    · rw [lists]
      exact listing_ordered _
    · rw [announces, lists, whole.length_eq]
    · split_ifs with none
      · rw [List.isEmpty_iff.mp none]
        simp [exitOk, exitDiffers]
      · simpa using none

/-- Where no two words of a file are for one register, no two of them differ. -/
theorem words_of_noOverlap {config : Config} (accepted : Accepted config) (noOverlap : NoOverlap config)
    (seen : Reading) (entries : List Entry) (read : desired config = .ok entries) :
    entries.Pairwise fun first second => first.path = second.path →
      ¬ (Differs seen (deviceForName config.deviceName) first
        ∧ Differs seen (deviceForName config.deviceName) second) := by
  obtain ⟨declared, added, mirrors, loaded⟩ := accepted.loaded
  obtain ⟨others, channels, globals, generated⟩ := loaded.generated
  obtain rfl : others = entries := Except.ok.inj (generated.desired.symm.trans read)
  have distinct := (generated.distinct_iff loaded).mpr noOverlap
  exact (List.pairwise_map.mp distinct).imp fun apart same _ => apart same

/-- A desk without AutoSet, and a device that reported nothing of it. -/
theorem separateVolumes_shows : ShowsEvery (configOf separateVolumes) [] := by
  have accepted : Accepted (configOf separateVolumes) := accepted_configOf (by decide +kernel)
  have none : (configOf separateVolumes).channels.all (fun setting => setting.option ≠ .flat "autoset") = true := by
    decide +kernel
  refine (showsEvery_iff accepted []).mpr ⟨fun setting member switch => ?_,
    words_of_noOverlap accepted (by decide +kernel) []⟩
  exact absurd switch (of_decide_eq_true (List.all_eq_true.mp none setting member))

/-- An AutoSet switch that is on. -/
def autosetSwitch : IniFile where
  sections := [.single "input:1" "autoset" "on"]
  distinct := by decide

/-- Where the device has it off, one register differs, and none is shown. -/
theorem autosetSwitch_hidden : ¬ ∀ config, Accepted config → ∀ seen, ShowsEvery config seen := by
  intro always
  obtain ⟨entries, code, printed, read, ran, shows⟩ := always (configOf autosetSwitch)
    (accepted_configOf (by decide +kernel)) [(.channel .input 1 (.flat "autoset"), [.int 0])]
  have shown : (diff (configOf autosetSwitch) (some [(.channel .input 1 (.flat "autoset"), [.int 0])])).toOption
      = some (exitDiffers, [.announce 1]) := by decide +kernel
  rw [ran] at shown
  obtain ⟨-, rfl⟩ := Prod.mk.inj (Option.some_inj.mp shown)
  cases shows.counted

end Diff

end OscmixDesk
