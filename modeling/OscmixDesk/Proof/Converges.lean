/-
**Applying converges.**

An entry of an accepted configuration asks something of a row of the table (`Demands`): a whole number, a scaled
quantity or a crosspoint. The backend stores what was written and reports it in its own encoding (`Echoes`). Behind
an apply the next plan holds nothing but what no report can confirm, exactly when no level was so near to the mute
floor that the wire rounded it onto the floor (`converges`).

* `entry_demands` — what every entry of an accepted configuration asks;
* `echo_satisfies` — the echo of an entry satisfies it, unless its level is `Faint`;
* `converges` — the plan against the echoes, and the read-back of them.
-/

import Mathlib.Data.List.Find
import OscmixDesk.Foundation.LastWins
import OscmixDesk.Model.Dump
import OscmixDesk.Proof.Encodings
import OscmixDesk.Proof.Layers
import OscmixDesk.Proof.ReadBacks

set_option maxRecDepth 100000

namespace OscmixDesk

open Checks

/-! ### What an entry asks -/

/-- What an entry asks of the row of its register. -/
inductive Demands (row : Register) (entry : Entry) : Prop
  | whole (number : ℤ) (args : entry.args = [.int number]) (tags : entry.tags = "i")
      (plain : row.mixLevel = false) (small : integer (.int number) = .ok number)
      (quantity : row.domain = some .number →
        numberValue (.int number) row = .ok number ∧ numberValue (.int number) row true = .ok number)
      (known : row.domain.isSome → (reportValue (.int number) row).toOption.isSome)
      (flag : entry.path.endsWith "stereo" = true ∨ entry.path.endsWith "autoset" = true →
        row.domain ≠ some .enum ∧ (number = 0 ∨ number = 1))
  | scaled (quantity scale : ℚ) (args : entry.args = [.real quantity]) (tags : entry.tags = "f")
      (calibrated : Calibrated row scale) (accepted : numberValue (.real quantity) row = .ok quantity)
      (level : entry.path.endsWith "autoset" = false)
  | cell (level : ℚ) (pan : ℤ) (args : entry.args = [.real level, .int pan]) (tags : entry.tags = "fi")
      (mix : row.mixLevel = true ∧ row.domain = none) (matrix : entry.path.isMix = true)
      (balance : -100 ≤ pan ∧ pan ≤ 100)

/-! ### Integers -/

theorem finite_int {number : ℤ} (small : |number| < 2 ^ 53) : finite (.int number) = .ok number := by
  unfold finite
  have fits : |(number : ℚ)| ≤ 2 ^ 100 := by
    have : |(number : ℚ)| < 2 ^ 53 := by exact_mod_cast small
    linarith
  dsimp only
  rw [binary64_small fits, round64_int small]

theorem integer_int {number : ℤ} (low : -(2 ^ 31) ≤ number) (high : number < 2 ^ 31) :
    integer (.int number) = .ok number := by
  have small : |number| < 2 ^ 53 := by
    rw [abs_lt]
    constructor <;> omega
  unfold integer
  rw [finite_int small]
  have low' : -(2 ^ 31) ≤ (number : ℚ) := by exact_mod_cast low
  have high' : (number : ℚ) < 2 ^ 31 := by exact_mod_cast high
  show (if (number : ℚ).den = 1 ∧ _ then _ else _) = _
  rw [if_pos ⟨Rat.den_intCast number, low', high'⟩]
  rfl

/-- An integer that was read is the number it was read from. -/
theorem integer_real {value : ℚ} {number : ℤ} (read : integer (.real value) = .ok number) :
    value = number ∧ -(2 ^ 31) ≤ number ∧ number < 2 ^ 31 := by
  unfold integer at read
  obtain ⟨own, same, read⟩ := bind_eq_ok.mp read
  obtain rfl := Except.ok.inj same
  split at read
  · next whole =>
      obtain rfl := pure_eq_ok.mp read
      have own : ((value.num : ℤ) : ℚ) = value := by
        rw [← Rat.den_eq_one_iff]
        exact whole.1
      refine ⟨own.symm, ?_, ?_⟩
      · exact_mod_cast own ▸ whole.2.1
      · exact_mod_cast own ▸ whole.2.2
  · cases read

/-- The checks of a domain see the number only. -/
theorem numberValue_int {number : ℤ} (small : |number| < 2 ^ 53) (row : Register) (reported : Bool) :
    numberValue (.int number) row reported = numberValue (.real number) row reported := by
  unfold numberValue
  rw [finite_int small]
  rfl

/-- A row that is no float holds its reports to the bounds as they are written. -/
theorem numberValue_reported {row : Register} (plain : row.startsWith 'f' = false) (value : Value) :
    numberValue value row true = numberValue value row := by
  have limits (bound : ℚ) (lower : Bool) : limitOf bound lower true row = limitOf bound lower false row := by
    unfold limitOf
    rw [plain]
    rfl
  have bounds (bound : Option ℚ) (lower : Bool) (number : ℚ) :
      checkBound bound lower true row number = checkBound bound lower false row number := by
    unfold checkBound
    cases bound with
    | none => rfl
    | some bound => simp only [limits]
  unfold numberValue
  simp only [bounds]

/-! ### What the settings ask -/

theorem ucx2_enums : ∀ row ∈ ucx2.registers, row.domain = some .enum → row.mixLevel = false
    ∧ ∀ number ∈ Dump.wireValues row, integer (.int number) = .ok number := by decide +kernel

theorem ucx2_plain : ∀ row ∈ ucx2.registers, row.domain.isSome → row.mixLevel = false := by decide +kernel

/-- The wire value of a name is one of the wire values. -/
theorem enumValue_wire {row : Register} {value : Value} {number : ℤ} (tagged : row.tagged)
    (enum : row.domain = some .enum) (written : enumValue row value = .ok number) :
    number ∈ Dump.wireValues row := by
  unfold enumValue at written
  split at written
  · next name =>
      split at written
      · next position found =>
          obtain rfl := Except.ok.inj written
          have bound := (List.idxOf?_eq_some_iff.mp found).1
          unfold Register.tagged at tagged
          rw [enum] at tagged
          simp only [Bool.or_eq_true, List.isEmpty_iff, decide_eq_true_eq] at tagged
          unfold Dump.wireValues
          rcases tagged with empty | same
          · rw [empty]
            have range : (position : ℤ) ∈ (List.range row.choices.length).map Int.ofNat :=
              List.mem_map.mpr ⟨position, List.mem_range.mpr bound, rfl⟩
            simpa using range
          · have inside : position < row.values.length := same ▸ bound
            have filled : row.values.isEmpty = false := by
              rw [List.isEmpty_eq_false_iff_exists_mem]
              exact ⟨_, List.getElem_mem inside⟩
            rw [filled, List.getD_eq_getElem?_getD, List.getElem?_eq_getElem inside]
            exact List.getElem_mem inside
      · cases written
  · cases written

/-- What a setting of the file asks of its row. -/
theorem encoded_demands {row : Register} (member : row ∈ ucx2.registers) {value : Value} {entry : Entry}
    (read : ReadFor row value) (encoded : Encoded row value entry.path entry)
    (switch : entry.path.endsWith "stereo" = true ∨ entry.path.endsWith "autoset" = true →
      row.domain = some .bool) : Demands row entry := by
  have tagged := ucx2_tabled.tagged row member
  cases encoded with
  | named name number held written tags args phase =>
      subst held
      have enum : row.domain = some .enum := by
        unfold ReadFor at read
        split at read
        · rcases read with same | same <;> cases same
        · assumption
        · obtain ⟨own, same, -⟩ := read
          cases same
        · cases read
      have wire := enumValue_wire tagged enum written
      obtain ⟨plain, small⟩ := ucx2_enums row member enum
      refine .whole number args tags plain (small number wire) (fun other => ?_) (fun _ => ?_) (fun named => ?_)
      · rw [enum] at other
        cases other
      · unfold reportValue
        rw [enum]
        unfold Dump.wireValues at wire
        simp only [small number (by unfold Dump.wireValues; exact wire), bind, Except.bind, wire, if_true]
        rfl
      · have bool := switch named
        rw [enum] at bool
        cases bool
  | quantity number held float tags args phase =>
      subst held
      have domain : row.domain = some .number ∧ numberValue (.real number) row = .ok number := by
        unfold ReadFor at read
        split at read
        · rcases read with same | same <;> cases same
        · obtain ⟨own, -, same⟩ := read
          cases same
        · obtain ⟨own, same, accepted⟩ := read
          cases same
          exact ⟨by assumption, accepted⟩
        · cases read
      unfold Register.tagged at tagged
      rw [domain.1, float] at tagged
      obtain ⟨scale, scaled⟩ : ∃ scale, row.scale = some scale := Option.isSome_iff_exists.mp (by simpa using tagged)
      have calibrated := Register.calibrated_scaled scaled (ucx2_calibrated row member)
      refine .scaled number scale args tags calibrated domain.2 ?_
      by_contra named
      have bool := switch (Or.inr (by simpa using named))
      rw [domain.1] at bool
      cases bool
  | whole number held plain tags args phase =>
      have notFloat : row.startsWith 'f' = false := by simpa using plain
      unfold ReadFor at read
      split at read
      · next bool =>
          have small : number = 0 ∨ number = 1 := by
            rcases read with rfl | rfl
            · exact Or.inl (Except.ok.inj (held.symm.trans (integer_small (Or.inl rfl))))
            · exact Or.inr (Except.ok.inj (held.symm.trans (integer_small (Or.inr rfl))))
          refine .whole number args tags (ucx2_plain row member (by rw [bool]; rfl)) (integer_small small)
            (fun other => ?_) (fun _ => ?_) (fun _ => ⟨by simp [bool], small⟩)
          · rw [bool] at other
            cases other
          · unfold reportValue
            rw [bool]
            simp only [integer_small small, bind, Except.bind, small, if_true]
            rfl
      · obtain ⟨name, -, rfl⟩ := read
        cases held
      · next domain =>
          obtain ⟨quantity, rfl, accepted⟩ := read
          obtain ⟨rfl, low, high⟩ := integer_real held
          have small : |number| < 2 ^ 53 := by
            rw [abs_lt]
            constructor <;> omega
          have checked : numberValue (.int number) row = .ok number :=
            (numberValue_int small row false).trans accepted
          have reported := (numberValue_reported notFloat (.int number)).trans checked
          refine .whole number args tags (ucx2_plain row member (by rw [domain]; rfl)) (integer_int low high)
            (fun _ => ⟨checked, reported⟩) (fun _ => ?_) (fun named => ?_)
          · unfold reportValue
            rw [domain]
            dsimp only
            rw [reported]
            rfl
          · have bool := switch named
            rw [domain] at bool
            cases bool
      · cases read

/-! ### Rows -/

/-- Whether a row whose name the read-back treats as a switch is one. -/
def Register.switched (row : Register) : Bool :=
  row.domain.isNone || row.domain = some .bool || match row.template with
  | .channel _ setting => setting.last ≠ "stereo" && setting.last ≠ "autoset"
  | .global _ option => option ≠ some "stereo" && option ≠ some "autoset"
  | .mix _ => true

theorem ucx2_switched : ∀ row ∈ ucx2.registers, row.switched := by decide +kernel

theorem ucx2_gains : ∀ row ∈ ucx2.registers, row.template = gainTemplate → row.domain.isSome := by decide +kernel

/-- The first row of a template verifies as every row of it does. -/
theorem ucx2_verify : ∀ row ∈ ucx2.registers,
    (ucx2.registers.find? (·.template = row.template)).map (·.verify) = some row.verify := by decide +kernel

theorem registerAt_eq_some {path : Path} {row : Register} (found : registerAt (some ucx2) path = some row) :
    row ∈ ucx2.registers ∧ row.template = path.template := by
  unfold registerAt at found
  rw [Option.bind_some] at found
  have holds := List.find?_some found
  simp only [Bool.and_eq_true, decide_eq_true_eq] at holds
  exact ⟨List.mem_of_find?_eq_some found, holds.1⟩

theorem verifyClass_row {path : Path} {row : Register} (found : registerAt (some ucx2) path = some row) :
    verifyClass (some ucx2) path = some row.verify := by
  obtain ⟨member, template⟩ := registerAt_eq_some found
  have own := ucx2_verify row member
  rw [template] at own
  exact own

/-- The row an option resolves to is the row of its path. -/
theorem registerAt_option {family : Family} {option : Setting} {channel : ℕ} {row : Register}
    (resolved : optionRegister (some ucx2) family option channel = some row) :
    registerAt (some ucx2) (.channel family channel option) = some row := by
  obtain ⟨member, template, domain, -⟩ := optionRegister_eq_some resolved
  have settable : ∀ own ∈ ucx2.registers, own.template = .channel family option → own.domain.isSome := by
    intro own known same
    by_cases gain : own.template = gainTemplate
    · exact ucx2_gains own known gain
    · rw [ucx2_tabled.row_unique known member (same.trans template.symm) gain]
      exact domain
  rw [← resolved]
  unfold registerAt optionRegister
  rw [Option.bind_some, Option.bind_some]
  refine List.find?_congr fun own known => ?_
  show (decide (own.template = .channel family option) && _)
    = (decide (own.template = .channel family option) && _ && _)
  by_cases same : own.template = .channel family option
  · simp only [settable own known same, Bool.and_true]
    rfl
  · simp [same]

/-- The row a global option resolves to is the row of its path. -/
theorem registerAt_global {setting : GlobalSetting} {row : Register}
    (resolved : (settableGlobals (some ucx2) setting.family).lookup setting.option = some row) :
    registerAt (some ucx2) setting.path = some row := by
  have listed := mem_of_lookup resolved
  have template : row ∈ ucx2.registers ∧ row.template = setting.path.template := by
    unfold settableGlobals at listed
    obtain ⟨own, known, chosen⟩ := List.mem_filterMap.mp listed
    have owned := ucx2_tabled.owned own known
    split at chosen
    · cases chosen
    split at chosen
    · next family template =>
        split at chosen
        · next same =>
            obtain ⟨option, rfl⟩ := Prod.mk.inj (Option.some.inj chosen)
            unfold GlobalSetting.path
            rw [if_pos option.symm, template, same]
            exact ⟨known, rfl⟩
        · cases chosen
    · next family option template =>
        split at chosen
        · next same =>
            obtain ⟨named, rfl⟩ := Prod.mk.inj (Option.some.inj chosen)
            have apart : option ≠ enableOption := by
              rw [Register.owned, template] at owned
              exact of_decide_eq_true owned
            unfold GlobalSetting.path
            rw [← named, if_neg apart, template, same]
            exact ⟨known, rfl⟩
        · cases chosen
    · cases chosen
  obtain ⟨member, template⟩ := template
  have found : (registerAt (some ucx2) setting.path).isSome := by
    obtain ⟨family, option, shape⟩ := globalPath_shape setting
    unfold registerAt
    rw [Option.bind_some, List.find?_isSome]
    refine ⟨row, member, ?_⟩
    rw [shape] at template ⊢
    simp [template, Path.firstChannel]
  obtain ⟨other, same⟩ := Option.isSome_iff_exists.mp found
  obtain ⟨member', template'⟩ := registerAt_eq_some same
  obtain ⟨family, option, shape⟩ := globalPath_shape setting
  rw [same, ucx2_tabled.row_unique member' member (template'.trans template.symm)]
  rw [template', shape]
  exact Template.noConfusion

theorem switch_of {path : Path} {row : Register} (found : registerAt (some ucx2) path = some row)
    (settable : row.domain.isSome) (named : path.endsWith "stereo" = true ∨ path.endsWith "autoset" = true) :
    row.domain = some .bool := by
  obtain ⟨member, template⟩ := registerAt_eq_some found
  have switched := ucx2_switched row member
  unfold Register.switched at switched
  rw [template] at switched
  rw [Option.isSome_iff_ne_none] at settable
  cases path with
  | channel family number setting =>
      simp only [Path.endsWith, beq_iff_eq] at named
      simp only [Path.template, Option.isNone_iff_eq_none, settable, Bool.or_eq_true, Bool.and_eq_true,
        decide_eq_true_eq, false_or] at switched
      tauto
  | mix output kind source =>
      simp [Path.endsWith] at named
  | global family option =>
      simp only [Path.endsWith, beq_iff_eq] at named
      simp only [Path.template, Option.isNone_iff_eq_none, settable, Bool.or_eq_true, Bool.and_eq_true,
        decide_eq_true_eq, false_or] at switched
      tauto

/-! ### What the routes and the base ask -/

theorem ucx2_links (family : Family) : ∀ channel ∈ seq 1 20,
    (registerAt (some ucx2) (.link family channel)).any (fun row => row.domain.isNone && !row.mixLevel) = true := by
  cases family <;> decide +kernel

/-- The row of the faders. -/
def volumeRow : Register :=
  levelRow .output "volume" "output" levelMin levelMax (literal 1 1)

theorem ucx2_volumes : volumeRow ∈ ucx2.registers
    ∧ ∀ output ∈ seq 1 20, registerAt (some ucx2) (.volume output) = some volumeRow := by decide +kernel

theorem ucx2_cells (kind : Kind) : ∀ output ∈ seq 1 20,
    (registerAt (some ucx2) (.mix output kind 0)).any (fun row => row.mixLevel && row.domain.isNone) = true := by
  cases kind <;> decide +kernel

theorem mem_ucx2_channels {family : Family} {channel : ℕ} :
    channel ∈ ucx2.channelsFor family.name ↔ 1 ≤ channel ∧ channel ≤ 20 := by
  have counted : ucx2.channelsFor family.name = seq 1 20 := by cases family <;> decide
  rw [counted, seq, List.mem_range']
  constructor
  · rintro ⟨offset, bound, rfl⟩
    omega
  · rintro ⟨low, high⟩
    exact ⟨channel - 1, by omega, by omega⟩

theorem mem_seq {channel : ℕ} (low : 1 ≤ channel) (high : channel ≤ 20) : channel ∈ seq 1 20 := by
  rw [seq, List.mem_range']
  exact ⟨channel - 1, by omega, by omega⟩

/-- A quantity inside the bounds of a scaled row is one of its domain. -/
theorem numberValue_inside {row : Register} {scale quantity : ℚ} (calibrated : Calibrated row scale)
    (small : |quantity| ≤ 2 ^ 20) {lo hi : ℚ} (lower : row.lo = some lo) (upper : row.hi = some hi)
    (low : lo ≤ quantity) (high : quantity ≤ hi) :
    numberValue (.real quantity) row = .ok quantity := by
  have least := rawOf_mono calibrated low
  have most := rawOf_mono calibrated high
  have lowest : row.lowest = row.rawOf lo := by simp [Register.lowest, lower]
  have highest : row.highest = row.rawOf hi := by simp [Register.highest, upper]
  have written := rawValue_fits calibrated small ((lowest ▸ calibrated.lowest).trans least)
    (most.trans (highest ▸ calibrated.highest))
  refine numberValue_of calibrated written ?_ ?_
  · rw [lower]
    exact if_neg (not_lt.mpr low)
  · rw [upper]
    exact if_neg (not_lt.mpr high)

section Routes

variable {config : Config} {declared added : List Route} {mirrors : List Mirror}

/-- A route's balance and volume are what the file format allows. -/
theorem Loaded.route_values (loaded : Loaded config declared added mirrors) {route : Route}
    (member : route ∈ config.routes) : (-100 ≤ route.pan ∧ route.pan ≤ 100)
      ∧ ∀ volume, route.volume = some volume → levelMin ≤ volume ∧ volume ≤ levelMax := by
  have layers : ∀ original ∈ declared ++ added, (-100 ≤ original.pan ∧ original.pan ≤ 100)
      ∧ ∀ volume, original.volume = some volume → levelMin ≤ volume ∧ volume ≤ levelMax := by
    intro original known
    rcases List.mem_append.mp known with file | base
    · have parsed := loaded.parsed original file
      obtain ⟨pan, checked⟩ := parsed.balanced
      refine ⟨?_, parsed.volume⟩
      by_contra outside
      unfold Route.checkedPan at checked
      rw [if_pos outside] at checked
      cases checked
    · obtain ⟨device, -, -, left, -, -, diagonal, -⟩ := loaded.mem_added base
      cases diagonal with
      | mono own isOwn => exact ⟨by simp [monoDiagonal], by simp [monoDiagonal]⟩
      | pair => exact ⟨by simp [pairDiagonal], by simp [pairDiagonal]⟩
  rcases loaded.mem_routes.mp member with original | ⟨mirror, -, original, known, own, rfl⟩
  · exact layers route original
  · exact ⟨(layers original known).1, by simp [mirrorCopy]⟩

/-- The balance of a cell is the route's, none, or hard to one side. -/
theorem cell_balance {route : Route} {message : Message} (member : message ∈ cellMessages route)
    (balance : -100 ≤ route.pan ∧ route.pan ≤ 100) :
    ∃ out ∈ route.output.toList, ∃ level pan, message = mixMessage out route.kind route.source.first level pan
      ∧ -100 ≤ pan ∧ pan ≤ 100 := by
  unfold cellMessages at member
  cases output : route.output with
  | mono out =>
      simp only [output, List.mem_singleton] at member
      exact ⟨out, by simp [Channels.toList], _, _, member, by norm_num⟩
  | pair left right =>
      simp only [output] at member
      split at member
      · rw [List.mem_singleton] at member
        exact ⟨left, by simp [Channels.toList], _, _, member, balance⟩
      · rcases List.mem_cons.mp member with rfl | later
        · exact ⟨left, by simp [Channels.toList], _, _, rfl, by norm_num⟩
        · rw [List.mem_singleton] at later
          exact ⟨right, by simp [Channels.toList], _, _, later, by norm_num⟩

theorem cell_demands {output source : ℕ} {kind : Kind} {level : ℚ} {pan : ℤ} (low : 1 ≤ output) (high : output ≤ 20)
    (balance : -100 ≤ pan ∧ pan ≤ 100) {entry : Entry} (path : entry.path = .mix output kind source)
    (tags : entry.tags = "fi") (args : entry.args = [.real level, .int pan]) :
    ∃ row, registerAt (some ucx2) entry.path = some row ∧ Demands row entry := by
  have own : (registerAt (some ucx2) (.mix output kind source)).any (fun row => row.mixLevel && row.domain.isNone)
      = true := ucx2_cells kind output (mem_seq low high)
  obtain ⟨row, found, mix⟩ := (Option.any_eq_true _ _).mp own
  simp only [Bool.and_eq_true, Option.isNone_iff_eq_none] at mix
  exact ⟨row, path ▸ found, .cell level pan args tags mix (by rw [path]; rfl) balance⟩

theorem link_demands {family : Family} {channel : ℕ} (low : 1 ≤ channel) (high : channel ≤ 20) {linked : Bool}
    {entry : Entry} (path : entry.path = .link family channel) (tags : entry.tags = "i")
    (args : entry.args = [boolArg linked]) :
    ∃ row, registerAt (some ucx2) entry.path = some row ∧ Demands row entry := by
  obtain ⟨row, found, plain⟩ := (Option.any_eq_true _ _).mp (ucx2_links family channel (mem_seq low high))
  simp only [Bool.and_eq_true, Option.isNone_iff_eq_none, Bool.not_eq_true'] at plain
  have small : ((if linked then 1 else 0 : ℤ) = 0) ∨ ((if linked then 1 else 0 : ℤ) = 1) := by cases linked <;> simp
  refine ⟨row, path ▸ found, .whole (if linked then 1 else 0) args tags plain.2 (integer_small small)
    (fun other => ?_) (fun settable => ?_) fun _ => ⟨by simp [plain.1], small⟩⟩
  · rw [plain.1] at other
    cases other
  · rw [plain.1] at settable
    cases settable

theorem anchor_range {channel : ℕ} (low : 1 ≤ channel) (high : channel ≤ 20) :
    1 ≤ anchor channel ∧ anchor channel ≤ 20 := by
  unfold anchor
  split <;> omega

/-- Every entry of an accepted configuration asks something of a row of the table. -/
theorem entry_demands (loaded : Loaded config declared added mirrors)
    (device : deviceForName config.deviceName = some ucx2) {entries channels globals : List Entry}
    (generated : Generated config entries channels globals) {entry : Entry} (member : entry ∈ entries) :
    ∃ row, registerAt (some ucx2) entry.path = some row ∧ Demands row entry := by
  rcases generated.mem_iff.mp member with routed | silent | channel | global
  · obtain ⟨route, known, made⟩ := (mem_producedEntries _).mp (mem_produced _ routed)
    obtain ⟨source, output⟩ := loaded.route_channels device known
    obtain ⟨balance, volumes⟩ := loaded.route_values known
    have outputs : ∀ out ∈ route.output.toList, 1 ≤ out ∧ out ≤ 20 := fun out inside =>
      (@mem_ucx2_channels .output out).mp (output out inside)
    have first := mem_ucx2_channels.mp (source _ route.source.first_mem)
    rcases made with ⟨message, link, rfl⟩ | ⟨message, mix, rfl⟩
    · rcases mem_linkMessages.mp link with rfl | rfl
      · have range := anchor_range first.1 first.2
        exact link_demands range.1 range.2 rfl rfl rfl
      · have last := outputs _ route.output.first_mem
        have range := anchor_range last.1 last.2
        exact link_demands range.1 range.2 rfl rfl rfl
    · rcases List.mem_append.mp mix with cell | fader
      · obtain ⟨out, inside, level, pan, rfl, balance⟩ := cell_balance cell balance
        exact cell_demands (outputs out inside).1 (outputs out inside).2 balance rfl rfl rfl
      · obtain ⟨volume, declared, out, inside, rfl⟩ := mem_volumeMessages.mp fader
        obtain ⟨low, high⟩ := volumes volume declared
        have calibrated := @Register.calibrated_scaled volumeRow _ rfl (ucx2_calibrated _ ucx2_volumes.1)
        have small : |volume| ≤ 2 ^ 20 := by
          unfold levelMin at low
          unfold levelMax at high
          rw [abs_le]
          constructor <;> linarith
        exact ⟨volumeRow, ucx2_volumes.2 out (mem_seq (outputs out inside).1 (outputs out inside).2),
          .scaled volume _ rfl rfl calibrated (numberValue_inside calibrated small rfl rfl low high) rfl⟩
  · obtain ⟨own, named, cell, silenced, rfl⟩ := mem_silentEntries.mp silent
    obtain rfl : ucx2 = own := Option.some.inj (device.symm.trans named)
    obtain ⟨⟨out, oddOut, kind, -, source, oddSource, inBlock⟩, -⟩ := mem_baseEntries.mp silenced
    obtain ⟨target, inPair, channel, -, rfl⟩ := mem_blockCells.mp inBlock
    have left := mem_ucx2_channels.mp (mem_oddChannels.mp oddOut).1
    have right := mem_ucx2_channels.mp (mem_oddChannels.mp oddOut).2.2
    have range : 1 ≤ target ∧ target ≤ 20 := by
      rcases mem_addressed.mp inPair with same | ⟨-, same⟩ <;> omega
    exact cell_demands range.1 range.2 (by norm_num) rfl rfl rfl
  · obtain ⟨setting, -, own, named, shape, row, resolved, read, encoded⟩ := exists_left generated.channels channel
    obtain rfl : ucx2 = own := Option.some.inj (device.symm.trans named)
    have found : registerAt (some ucx2) entry.path = some row := shape.path ▸ registerAt_option resolved
    exact ⟨row, found, encoded_demands (registerAt_eq_some found).1 read (shape.path ▸ encoded)
      (switch_of found (optionRegister_eq_some resolved).2.2.1)⟩
  · obtain ⟨setting, -, own, named, shape, row, resolved, read, encoded⟩ := exists_left generated.globals global
    obtain rfl : ucx2 = own := Option.some.inj (device.symm.trans named)
    have found : registerAt (some ucx2) entry.path = some row := shape.path ▸ registerAt_global resolved
    have settable : row.domain.isSome := by
      unfold ReadFor at read
      cases domain : row.domain with
      | none => simp [domain] at read
      | some domain => rfl
    exact ⟨row, found, encoded_demands (registerAt_eq_some found).1 read (shape.path ▸ encoded)
      (switch_of found settable)⟩

end Routes

/-! ### What the backend reports -/

/-- What the backend reports of a register behind the entry that wrote it. A level arrives as a float of the wire,
and one at the floor is silence, whose balance may be any. -/
inductive Echoes (row : Register) (entry : Entry) : String → Args → Prop
  | scaled (quantity report : ℚ) (written : entry.args = [.real quantity])
      (encoded : expectedReport (.real quantity) row = .ok report) : Echoes row entry "f" [.real report]
  | whole (number : ℤ) (domain : row.domain ≠ some .enum) (written : entry.args = [.int number]) :
      Echoes row entry "i" [.int number]
  | named (number : ℤ) (domain : row.domain = some .enum) (written : entry.args = [.int number]) :
      Echoes row entry "is" [.int number, .str (row.choices.getD ((Dump.wireValues row).idxOf number) "")]
  | silent (level : ℚ) (pan any : ℤ) (written : entry.args = [.real level, .int pan])
      (floor : round32 level ≤ levelMin) (balance : -100 ≤ any ∧ any ≤ 100) :
      Echoes row entry "fi" [.float (.infinite true), .int any]
  | audible (level heard : ℚ) (pan : ℤ) (written : entry.args = [.real level, .int pan])
      (above : levelMin < round32 level) (near : |heard - level| ≤ 1 / 2)
      (wire : float32 (.real heard) = .ok heard) : Echoes row entry "fi" [.real heard, .int pan]

/-- A level above the floor that the wire rounds onto it. -/
def Faint (entry : Entry) : Prop :=
  ∃ level pan, entry.args = [.real level, .int pan] ∧ levelMin < level ∧ round32 level ≤ levelMin

theorem round32_floor : round32 levelMin = levelMin := by
  unfold levelMin
  exact_mod_cast @round32_int (-65) (by norm_num)

theorem round64_half {q : ℚ} (near : |q| ≤ 1 / 2) : |round64 q| ≤ 1 / 2 := by
  have half : round64 (1 / 2) = 1 / 2 := by
    have exact := @roundTo_exact 53 (-1074) 1 (-1) (by norm_num) (by norm_num)
    unfold round64
    simpa using exact
  have size := abs_le.mp near
  rw [abs_le]
  constructor
  · have turned := round64_mono (show -(1 / 2) ≤ q by linarith)
    have other : round64 (-(1 / 2)) = -(1 / 2) := by
      have negated := @roundTo_neg 53 (-1074) (1 / 2)
      unfold round64 at half ⊢
      rw [negated, half]
    rwa [other] at turned
  · have above := round64_mono size.2
    rwa [half] at above

section Echo

variable {row : Register} {entry : Entry} {told : String} {args : Args}

theorem Echoes.of_int {number : ℤ} (echoes : Echoes row entry told args) (written : entry.args = [.int number]) :
    row.domain ≠ some .enum ∧ told = "i" ∧ args = [.int number]
      ∨ row.domain = some .enum ∧ told = "is" ∧ ∃ name, args = [.int number, .str name] := by
  cases echoes with
  | whole own domain other =>
      rw [written] at other
      cases other
      exact Or.inl ⟨domain, rfl, rfl⟩
  | named own domain other =>
      rw [written] at other
      cases other
      exact Or.inr ⟨domain, rfl, _, rfl⟩
  | scaled own report other => rw [written] at other; cases other
  | silent level pan any other => rw [written] at other; cases other
  | audible level heard pan other => rw [written] at other; cases other

theorem Echoes.of_real {quantity report : ℚ} (echoes : Echoes row entry told args)
    (written : entry.args = [.real quantity]) (expected : expectedReport (.real quantity) row = .ok report) :
    told = "f" ∧ args = [.real report] := by
  cases echoes with
  | scaled own report other encoded =>
      rw [written] at other
      cases other
      rw [expected] at encoded
      cases encoded
      exact ⟨rfl, rfl⟩
  | whole own domain other => rw [written] at other; cases other
  | named own domain other => rw [written] at other; cases other
  | silent level pan any other => rw [written] at other; cases other
  | audible level heard pan other => rw [written] at other; cases other

theorem Echoes.of_cell {level : ℚ} {pan : ℤ} (echoes : Echoes row entry told args)
    (written : entry.args = [.real level, .int pan]) :
    told = "fi" ∧ ((∃ any, args = [.float (.infinite true), .int any] ∧ round32 level ≤ levelMin
        ∧ -100 ≤ any ∧ any ≤ 100)
      ∨ ∃ heard, args = [.real heard, .int pan] ∧ levelMin < round32 level ∧ |heard - level| ≤ 1 / 2
        ∧ float32 (.real heard) = .ok heard) := by
  cases echoes with
  | silent own balance any other floor range =>
      rw [written] at other
      cases other
      exact ⟨rfl, Or.inl ⟨any, rfl, floor, range⟩⟩
  | audible own heard balance other above near wire =>
      rw [written] at other
      cases other
      exact ⟨rfl, Or.inr ⟨heard, rfl, above, near, wire⟩⟩
  | scaled own report other => rw [written] at other; cases other
  | whole own domain other => rw [written] at other; cases other
  | named own domain other => rw [written] at other; cases other

/-- Only a level can be faint. -/
theorem not_faint (clear : ∀ level pan, entry.args ≠ [.real level, .int pan]) : ¬Faint entry := by
  rintro ⟨level, pan, written, -⟩
  exact clear level pan written

theorem faint_iff {level : ℚ} {pan : ℤ} (written : entry.args = [.real level, .int pan]) :
    Faint entry ↔ levelMin < level ∧ round32 level ≤ levelMin := by
  constructor
  · rintro ⟨own, balance, other, faint⟩
    rw [written] at other
    cases other
    exact faint
  · exact fun faint => ⟨level, pan, written, faint⟩

theorem sameInteger_self {number : ℤ} (small : integer (.int number) = .ok number) :
    argMatches.sameInteger (.int number) (.int number) = .ok true := by
  unfold argMatches.sameInteger
  rw [small]
  simp [bind, Except.bind, pure, Except.pure]

theorem argMatches_whole {number : ℤ} (small : integer (.int number) = .ok number) (plain : row.mixLevel = false)
    (quantity : row.domain = some .number → numberValue (.int number) row = .ok number)
    (known : row.domain.isSome → (reportValue (.int number) row).toOption.isSome) (first : Value × Value)
    (tolerance : Option ℚ) :
    argMatches (some row) tolerance first 'i' (.int number) (.int number) = .ok true := by
  have same := sameInteger_self small
  unfold argMatches
  rw [if_neg (by decide), if_pos rfl]
  cases domain : row.domain with
  | none => simp [domain, plain, same]
  | some own =>
      obtain ⟨value, read⟩ := Option.isSome_iff_exists.mp (known (by rw [domain]; rfl))
      have read : reportValue (.int number) row = .ok value := by
        cases result : reportValue (.int number) row with
        | ok other =>
            rw [result] at read
            exact congrArg Except.ok (Option.some.inj read)
        | error problem =>
            rw [result] at read
            cases read
      by_cases number : own = .number
      · subst number
        simp [domain, quantity domain, read, plain, same, bind, Except.bind]
      · simp [domain, number, read, plain, same, bind, Except.bind]

/-- A report of a crosspoint against the level and the balance that were written. -/
theorem cell_matches (level : ℚ) (pan : ℤ) (heard balance : Value) (tolerance : Option ℚ) :
    matchesReport "fi" [.real level, .int pan] [heard, balance] tolerance (some row)
      = ((equalFloat (.real level) heard (some row) tolerance).toOption.getD false
        && (argMatches (some row) tolerance (.real level, heard) 'i' (.int pan) balance).toOption.getD false) := by
  have pair : "fi".toList = ['f', 'i'] := by decide
  simp [matchesReport, pair, argsMatch, argMatches.eq_def _ _ _ 'f']

/-- Silence satisfies a level at the floor and no other. -/
theorem silence_matches (mix : row.mixLevel = true) (bare : row.domain = none) (level : ℚ) {pan any : ℤ}
    (balance : -100 ≤ pan ∧ pan ≤ 100) (range : -100 ≤ any ∧ any ≤ 100) (tolerance : Option ℚ) :
    matchesReport "fi" [.real level, .int pan] [.float (.infinite true), .int any] tolerance (some row)
      = decide (level ≤ levelMin) := by
  rw [cell_matches]
  by_cases quiet : level ≤ levelMin
  · have equal : equalFloat (.real level) (.float (.infinite true)) (some row) tolerance = .ok true := by
      simp [equalFloat, Option.filter_some, finite_real, mix, quiet, bind, Except.bind, pure, Except.pure]
    have accepted : argMatches (some row) tolerance (.real level, .float (.infinite true)) 'i' (.int pan) (.int any)
        = .ok true := by
      simp [argMatches, mix, bare, finite_real, quiet, range, balance, bind, Except.bind, pure, Except.pure]
    simp [equal, accepted, quiet, Except.toOption]
  · have unequal : equalFloat (.real level) (.float (.infinite true)) (some row) tolerance = .error .notFinite := by
      simp [equalFloat, Option.filter_some, finite_real, finite_infinite, mix, quiet, bind, Except.bind]
    simp [unequal, quiet, Except.toOption]

/-- A level within half a decibel satisfies one above the floor. -/
theorem level_matches (mix : row.mixLevel = true) (bare : row.domain = none) {level heard : ℚ} {pan : ℤ}
    (loud : ¬level ≤ levelMin) (near : |heard - level| ≤ 1 / 2) (balance : -100 ≤ pan ∧ pan ≤ 100)
    (tolerance : Option ℚ) :
    matchesReport "fi" [.real level, .int pan] [.real heard, .int pan] tolerance (some row) = true := by
  have close : |round64 (level - heard)| ≤ 1 / 2 := round64_half (abs_sub_comm level heard ▸ near)
  have equal : equalFloat (.real level) (.real heard) (some row) tolerance = .ok true := by
    simp only [one_div] at close
    simp [equalFloat, Option.filter_some, finite_real, mix, loud, close, bind, Except.bind, pure, Except.pure]
  have same := sameInteger_self (@integer_int pan (by omega) (by omega))
  have balanced : argMatches (some row) tolerance (.real level, .real heard) 'i' (.int pan) (.int pan)
      = .ok true := by
    simp [argMatches, mix, bare, finite_real, loud, balance, same, bind, Except.bind]
  rw [cell_matches]
  simp [equal, balanced, Except.toOption]

/-- The echo of an entry satisfies it, unless its level is too near to the floor. -/
theorem echo_matches (demands : Demands row entry) (echoes : Echoes row entry told args) (tolerance : Option ℚ) :
    matchesReport entry.tags entry.args args tolerance (some row) = true ↔ ¬Faint entry := by
  cases demands with
  | whole number written tags plain small quantity known flag =>
      have matched := argMatches_whole small plain (fun domain => (quantity domain).1) known
      have single : "i".toList = ['i'] := by decide
      refine iff_of_true ?_ (not_faint (by simp [written]))
      rw [written, tags]
      rcases echoes.of_int written with ⟨-, -, rfl⟩ | ⟨-, -, name, rfl⟩
      · simp [matchesReport, single, argsMatch, matched, Except.toOption]
      · simp [matchesReport, single, argsMatch, matched, Except.toOption]
  | scaled quantity scale written tags calibrated accepted level =>
      obtain ⟨expected, -⟩ := report_accepted calibrated accepted
      obtain ⟨-, rfl⟩ := echoes.of_real written expected
      have fits := (rawValue_ok calibrated.scaled (numberValue_ok calibrated accepted).1).2
      have equal := equalFloat_reportAt calibrated accepted fits tolerance
      have single : "f".toList = ['f'] := by decide
      refine iff_of_true ?_ (not_faint (by simp [written]))
      rw [written, tags]
      simp [matchesReport, single, argsMatch, argMatches, equal]
  | cell level pan written tags mix matrix balance =>
      rw [faint_iff written, written, tags]
      rcases echoes.of_cell written with ⟨-, ⟨any, rfl, floor, range⟩ | ⟨heard, rfl, above, near, -⟩⟩
      · rw [silence_matches mix.1 mix.2 level balance range, decide_eq_true_iff]
        exact ⟨fun quiet faint => not_le.mpr faint.1 quiet, fun clear =>
          not_lt.mp fun loud => clear ⟨loud, floor⟩⟩
      · have loud : ¬level ≤ levelMin := fun quiet =>
          not_le.mpr above ((round32_mono quiet).trans round32_floor.le)
        exact iff_of_true (level_matches mix.1 mix.2 loud near balance tolerance) fun faint =>
          not_le.mpr above faint.2

theorem validArg_whole {number : ℤ} (plain : row.mixLevel = false) (small : integer (.int number) = .ok number)
    (known : row.domain.isSome → (reportValue (.int number) row).toOption.isSome) {stereo : Bool}
    (flag : stereo = true → number = 0 ∨ number = 1) :
    Observation.validArg (some row) stereo 0 'i' (.int number) = true := by
  have coded : (!stereo || decide (number = 0) || decide (number = 1)) = true := by
    cases stereo with
    | false => rfl
    | true => simpa using flag rfl
  unfold Observation.validArg
  rw [if_pos rfl]
  simp only [small, plain, Bool.false_eq_true, if_false]
  split_ifs with settable
  · rw [known settable, coded]
    rfl
  · exact coded

theorem validArg_scaled {scale : ℚ} (calibrated : Calibrated row scale) {raw : ℤ} (low : row.lowest ≤ raw)
    (high : raw ≤ row.highest) (stereo : Bool) :
    Observation.validArg (some row) stereo 0 'f' (.real (row.reportAt raw)) = true := by
  have least := calibrated.lowest
  have most := calibrated.highest
  have size := @reportAt_size _ _ calibrated raw ⟨by omega, by omega⟩
  have unit := (gap_bounds calibrated).2
  have wire := float32_real (size.trans (show 32769 * row.gap ≤ 2 ^ 100 by linarith))
  have known : reportValue (.real (row.reportAt raw)) row = .ok (row.reportAt raw) := by
    unfold reportValue
    rw [calibrated.number]
    exact report_in_domain calibrated low high
  unfold Observation.validArg
  simp [wire, known, calibrated.notMix, calibrated.number, Except.toOption]

theorem validArg_balance (mix : row.mixLevel = true) {pan : ℤ} (range : -100 ≤ pan ∧ pan ≤ 100) :
    Observation.validArg (some row) false 1 'i' (.int pan) = true := by
  have whole := @integer_int pan (by omega) (by omega)
  unfold Observation.validArg
  simp [mix, whole, range]

/-- The echo of an entry could be a report of its register. -/
theorem echo_valid (found : registerAt (some ucx2) entry.path = some row) (demands : Demands row entry)
    (echoes : Echoes row entry told args) :
    Observation.validReport (some ucx2) entry.expectation ⟨entry.path, told, args⟩ = true := by
  have single : "i".toList = ['i'] := by decide
  have float : "f".toList = ['f'] := by decide
  have pair : "fi".toList = ['f', 'i'] := by decide
  have choice : "is".toList = ['i', 's'] := by decide
  cases demands with
  | whole number written tags plain small quantity known flag =>
      have valid := validArg_whole plain small known fun named => (flag (Or.inl named)).2
      rcases echoes.of_int written with ⟨-, rfl, rfl⟩ | ⟨enum, rfl, name, rfl⟩
      · have switch : entry.path.endsWith "autoset" = true →
            (flagValue (some ⟨"i", [.int number]⟩)).isSome = true := by
          intro named
          simp [flagValue, (flag (Or.inr named)).2]
        simp only [Observation.validReport, Observation.valid, Entry.expectation, tags, single, found,
          Observation.validArgs, valid]
        cases named : entry.path.endsWith "autoset" with
        | false => rfl
        | true => rw [switch named]; rfl
      · have unswitched : entry.path.endsWith "autoset" = false := by
          by_contra named
          exact (flag (Or.inr (by simpa using named))).1 enum
        simp only [Observation.validReport, Observation.valid, Entry.expectation, tags, single, choice, found,
          Observation.validArgs, valid, unswitched]
        rfl
  | scaled quantity scale written tags calibrated accepted unswitched =>
      obtain ⟨expected, -⟩ := report_accepted calibrated accepted
      obtain ⟨low, high⟩ := rawOf_between calibrated accepted
      obtain ⟨rfl, rfl⟩ := echoes.of_real written expected
      have valid := validArg_scaled calibrated low high (entry.path.endsWith "stereo")
      simp only [Observation.validReport, Observation.valid, Entry.expectation, tags, float, found,
        Observation.validArgs, valid, unswitched]
      rfl
  | cell level pan written tags mix matrix balance =>
      have plain (name : String) : entry.path.endsWith name = false := by
        cases path : entry.path with
        | channel family channel setting => rw [path] at matrix; cases matrix
        | mix output kind source => rfl
        | global family option => rw [path] at matrix; cases matrix
      rcases echoes.of_cell written with ⟨rfl, ⟨any, rfl, floor, range⟩ | ⟨heard, rfl, above, near, wire⟩⟩
      · have valid := validArg_balance mix.1 range
        have silence : Observation.validArg (some row) false 0 'f' (.float (.infinite true)) = true := by
          simp [Observation.validArg, mix.1]
        simp only [Observation.validReport, Observation.valid, Entry.expectation, tags, pair, found,
          Observation.validArgs, valid, silence, plain]
        rfl
      · have valid := validArg_balance mix.1 balance
        have level : Observation.validArg (some row) false 0 'f' (.real heard) = true := by
          simp [Observation.validArg, mix.1, wire, Except.toOption]
        simp only [Observation.validReport, Observation.valid, Entry.expectation, tags, pair, found,
          Observation.validArgs, valid, level, plain]
        rfl

end Echo

/-! ### The next plan and the read-back -/

/-- The latest report of each register. -/
def answers (reports : List Message) (path : Path) : Option Args :=
  (lastOf Message.path path reports).map (·.args)

/-- The device stores what is written to each of its registers last, and reports every register it can. A silent
cell that may have folded onto a linked partner need not answer under its own address. -/
def HeldBack (entries : List Entry) (reports : List Message) : Prop :=
  ∀ path entry, lastOf Entry.path path entries = some entry → everReported path (some ucx2) = true →
    (∃ row report, registerAt (some ucx2) path = some row ∧ lastOf Message.path path reports = some report
      ∧ Echoes row entry report.tags report.args)
    ∨ entry.compared = false ∧ lastOf Message.path path reports = none

section Settled

variable {config : Config} {entries : List Entry} {reports : List Message}

/-- What is known of an entry of an apply. -/
structure Stands (entry : Entry) (reports : List Message) (row : Register) : Prop where
  found : registerAt (some ucx2) entry.path = some row
  demands : Demands row entry
  reported : everReported entry.path (some ucx2) = true ↔ row.verify = .verifiable
  answer : row.verify = .verifiable →
    (∃ report, lastOf Message.path entry.path reports = some report ∧ Echoes row entry report.tags report.args)
      ∨ entry.compared = false ∧ lastOf Message.path entry.path reports = none

theorem entry_stands (accepted : Accepted config) (device : deviceForName config.deviceName = some ucx2)
    (planned : desired config = .ok entries) (distinct : (entries.map Entry.path).Nodup)
    (held : HeldBack entries reports) {entry : Entry} (member : entry ∈ entries) :
    ∃ row, Stands entry reports row := by
  obtain ⟨declared, added, mirrors, loaded⟩ := accepted.loaded
  obtain ⟨own, channels, globals, generated⟩ := loaded.generated
  obtain rfl : entries = own := Except.ok.inj (planned.symm.trans generated.desired)
  obtain ⟨row, found, demands⟩ := entry_demands loaded device generated member
  have reported : everReported entry.path (some ucx2) = true ↔ row.verify = .verifiable := by
    unfold everReported
    rw [verifyClass_row found]
    exact decide_eq_true_iff
  refine ⟨row, found, demands, reported, fun verifiable => ?_⟩
  rcases held entry.path entry (lastOf_of_distinct distinct member) (reported.mpr verifiable) with
    ⟨own, report, found', told, echoes⟩ | silent
  · obtain rfl : row = own := Option.some.inj (found.symm.trans found')
    exact Or.inl ⟨report, told, echoes⟩
  · exact Or.inr silent

/-- How an entry stands against the answers: it is written again where no report confirms it, and contradicted where
its level is too near to the floor. -/
theorem Stands.compared {entry : Entry} {row : Register} (stands : Stands entry reports row) :
    ((everReported entry.path (some ucx2) = false ∨ answers reports entry.path = none)
        ∧ compare (some (answers reports)) (some ucx2) none entry = some .rewrite)
      ∨ everReported entry.path (some ucx2) = true ∧ (answers reports entry.path).isSome
        ∧ (Faint entry ∧ compare (some (answers reports)) (some ucx2) none entry = some .mismatched
          ∨ ¬Faint entry ∧ compare (some (answers reports)) (some ucx2) none entry = none) := by
  have verify := verifyClass_row stands.found
  by_cases verifiable : row.verify = .verifiable
  · rcases stands.answer verifiable with ⟨report, told, echoes⟩ | ⟨uncompared, silent⟩
    · have answer : answers reports entry.path = some report.args := by
        unfold answers
        rw [told]
        rfl
      have matched := echo_matches stands.demands echoes none
      refine Or.inr ⟨stands.reported.mpr verifiable, by rw [answer]; rfl, ?_⟩
      unfold compare
      simp only [Option.isSome_some, if_true, verify, verifiable, answer, stands.found]
      by_cases faint : Faint entry
      · refine Or.inl ⟨faint, ?_⟩
        rw [if_neg (by simp), if_neg (fun agrees => matched.mp agrees faint)]
      · refine Or.inr ⟨faint, ?_⟩
        rw [if_neg (by simp), if_pos (matched.mpr faint)]
    · have answer : answers reports entry.path = none := by
        unfold answers
        rw [silent]
        rfl
      refine Or.inl ⟨Or.inr answer, ?_⟩
      unfold compare
      simp only [uncompared, answer, and_self, or_true, if_true]
  · refine Or.inl ⟨Or.inl ?_, ?_⟩
    · rw [← Bool.not_eq_true, stands.reported]
      exact verifiable
    · unfold compare
      simp only [Option.isSome_some, if_true, verify, Option.some.injEq]
      rw [if_pos]
      cases own : row.verify with
      | verifiable => exact absurd own verifiable
      | writeOnly => exact Or.inr (Or.inl rfl)
      | reestablished => exact Or.inl rfl

/-- A read-back confirms an entry that is reported, unless its level is too near to the floor. -/
theorem Stands.confirmed (device : deviceForName config.deviceName = some ucx2)
    (planned : desired config = .ok entries) (distinct : (entries.map Entry.path).Nodup) {entry : Entry}
    (member : entry ∈ entries) (compared : entry.compared = true) {row : Register} (stands : Stands entry reports row)
    (reported : everReported entry.path (some ucx2) = true) (clear : ¬Faint entry) :
    entry.path ∈ ((readWindow config).absorbAll reports).confirmed := by
  have verifiable := stands.reported.mp reported
  obtain ⟨report, told, echoes⟩ : ∃ report, lastOf Message.path entry.path reports = some report
      ∧ Echoes row entry report.tags report.args := by
    rcases stands.answer verifiable with answer | ⟨uncompared, -⟩
    · exact answer
    · rw [compared] at uncompared
      cases uncompared
  have path : report.path = entry.path := key_lastOf told
  have expected : (readWindow config).expected.get? report.path = some entry.expectation := by
    have expects : (expectedRegisters config).toOption.getD []
        = (entries.filter (·.compared)).map Entry.expectation := by
      unfold expectedRegisters
      rw [planned]
      rfl
    unfold readWindow
    rw [Observation.expected_get?, expects, path]
    refine @lastOf_of_distinct _ _ _ Expectation.path _ entry.expectation ?_ ?_
    · rw [List.map_map]
      exact (List.filter_sublist.map Entry.path).nodup distinct
    · exact List.mem_map_of_mem (List.mem_filter.mpr ⟨member, compared⟩)
  have modelled : (readWindow config).device = some ucx2 := device
  have seen : Observation.unobservable (some ucx2) report.path = false := by
    unfold Observation.unobservable
    rw [path, stands.found]
    simp [verifiable]
  have valid := echo_valid stands.found stands.demands echoes
  have matched := (echo_matches stands.demands echoes none).mpr clear
  rw [← Observation.mem_focused_confirmed, Observation.focused_absorbAll, told, Observation.mem_focused_confirmed]
  show entry.path ∈ ((readWindow config).absorb report).confirmed
  rw [← path]
  have read : Observation.validReport (some ucx2) entry.expectation report = true := by
    obtain ⟨own, tags, args⟩ := report
    obtain rfl : own = entry.path := path
    exact valid
  have agrees : (Observation.validReport (some ucx2) entry.expectation report
      && matchesReport entry.expectation.tags entry.expectation.args report.args none
        (registerAt (some ucx2) report.path)) = true := by
    rw [read, path, stands.found]
    exact matched
  unfold Observation.absorb
  rw [expected]
  dsimp only
  rw [modelled, if_neg (by rw [seen]; decide), if_pos agrees]
  exact Finset.mem_insert_self _ _

/-- **Applying converges.** Behind an apply on the device with a register table, the next plan misses nothing; it
rewrites what no report can confirm and nothing else, and the read-back confirms every register that is reported,
exactly when no level that is reported was so near to the mute floor that the wire rounded it onto the floor. -/
theorem converges (accepted : Accepted config) (device : deviceForName config.deviceName = some ucx2)
    (planned : desired config = .ok entries) (distinct : (entries.map Entry.path).Nodup)
    (held : HeldBack entries reports) :
    (∀ write ∈ (plan entries (some (answers reports)) (some ucx2)).writes, write.reason ≠ .missing)
    ∧ (((∀ write ∈ (plan entries (some (answers reports)) (some ucx2)).writes, write.reason = .rewrite
          ∧ (everReported write.path (some ucx2) = false ∨ answers reports write.path = none))
        ∧ ∀ entry ∈ entries, entry.compared = true → everReported entry.path (some ucx2) = true →
          entry.path ∈ ((readWindow config).absorbAll reports).confirmed)
      ↔ ∀ entry ∈ entries, everReported entry.path (some ucx2) = true → (answers reports entry.path).isSome →
          ¬Faint entry) := by
  -- a write of the plan is an entry that does not stand as it was asked
  have mem_writes {write : Write} : write ∈ (plan entries (some (answers reports)) (some ucx2)).writes
      ↔ ∃ entry ∈ entries, ∃ reason, compare (some (answers reports)) (some ucx2) none entry = some reason
        ∧ entry.write reason = write := by
    unfold plan
    rw [(bucketSort_writes_perm _).mem_iff, List.mem_filterMap]
    simp only [Option.map_eq_some_iff]
  have stands := fun entry => @entry_stands config entries reports accepted device planned distinct held entry
  refine ⟨fun write inside => ?_, fun settled entry member reported answered faint => ?_, fun clear => ⟨?_, ?_⟩⟩
  · obtain ⟨entry, member, reason, compared, rfl⟩ := mem_writes.mp inside
    obtain ⟨row, stands⟩ := stands entry member
    rcases stands.compared with ⟨-, same⟩ | ⟨-, -, ⟨-, same⟩ | ⟨-, same⟩⟩ <;>
      rw [compared] at same <;> cases same <;> exact WriteReason.noConfusion
  · obtain ⟨row, stands⟩ := stands entry member
    rcases stands.compared with ⟨silent | silent, -⟩ | ⟨-, -, ⟨-, same⟩ | ⟨clear, -⟩⟩
    · rw [reported] at silent
      cases silent
    · rw [silent] at answered
      cases answered
    · have rewrite := (settled.1 _ (mem_writes.mpr ⟨entry, member, _, same, rfl⟩)).1
      cases rewrite
    · exact clear faint
  · intro write inside
    obtain ⟨entry, member, reason, compared, rfl⟩ := mem_writes.mp inside
    obtain ⟨row, stands⟩ := stands entry member
    rcases stands.compared with ⟨silent, same⟩ | ⟨reported, answered, ⟨faint, -⟩ | ⟨-, same⟩⟩
    · rw [compared] at same
      cases same
      exact ⟨rfl, silent⟩
    · exact absurd faint (clear entry member reported answered)
    · rw [compared] at same
      cases same
  · intro entry member compared reported
    obtain ⟨row, stands⟩ := stands entry member
    refine stands.confirmed device planned distinct member compared reported (clear entry member reported ?_)
    rcases stands.answer (stands.reported.mp reported) with ⟨report, told, -⟩ | ⟨uncompared, -⟩
    · unfold answers
      rw [told]
      rfl
    · rw [compared] at uncompared
      cases uncompared

end Settled

/-- The desk of one microphone at a level. -/
def micDesk (level : String) : IniFile where
  sections := [⟨"route:mic", [("input", "1"), ("output", "1"), ("level", level), ("volume", "-20.3")], by simp⟩]
  distinct := List.nodup_singleton _

/-- What it asks for. -/
def micEntries (level : ℚ) : List Entry :=
  [⟨.link .input 1, "i", [.int 0], .link, false, true⟩, ⟨.link .output 1, "i", [.int 0], .link, false, true⟩,
    ⟨.mix 1 .input 1, "fi", [.real level, .int 0], .mix, false, true⟩,
    ⟨.volume 1, "f", [.real (literal (-203) 1)], .mix, false, true⟩]

/-- What the device reports behind it, where it reports the microphone so. -/
def micReports (heard : Args) : List Message :=
  [⟨.link .input 1, "i", [.int 0]⟩, ⟨.link .output 1, "i", [.int 0]⟩, ⟨.mix 1 .input 1, "fi", heard⟩,
    ⟨.volume 1, "f", [.real (volumeRow.reportAt (-203))]⟩]

theorem micDesk_held {level : ℚ} {heard : Args}
    (echoes : ∀ row, Echoes row ⟨.mix 1 .input 1, "fi", [.real level, .int 0], .mix, false, true⟩ "fi" heard) :
    HeldBack (micEntries level) (micReports heard) := by
  intro path entry last reported
  have member := mem_of_lastOf last
  obtain rfl := key_lastOf last
  have links : ∀ family : Family, ∃ row, registerAt (some ucx2) (.link family 1) = some row
      ∧ row.domain ≠ some .enum := by
    intro family
    obtain ⟨row, found, plain⟩ := (Option.any_eq_true _ _).mp (ucx2_links family 1 (by decide))
    refine ⟨row, found, fun enum => ?_⟩
    rw [enum] at plain
    cases plain
  obtain ⟨row, mix, -⟩ := (Option.any_eq_true _ _).mp (ucx2_cells .input 1 (by decide))
  simp only [micEntries, List.mem_cons, List.not_mem_nil, or_false] at member
  rcases member with rfl | rfl | rfl | rfl
  · obtain ⟨row, found, plain⟩ := links .input
    exact Or.inl ⟨row, _, found, rfl, .whole 0 plain rfl⟩
  · obtain ⟨row, found, plain⟩ := links .output
    exact Or.inl ⟨row, _, found, rfl, .whole 0 plain rfl⟩
  · exact Or.inl ⟨row, _, mix, rfl, echoes row⟩
  · exact Or.inl ⟨volumeRow, _, by decide +kernel, rfl, .scaled _ _ rfl (by decide +kernel)⟩

/-- Behind an apply of an ordinary level nothing is left to write; one just above the mute floor is contradicted for
ever. -/
theorem micDesk_converges :
    (∀ write ∈ (plan (micEntries (literal (-125) 1)) (some (answers (micReports [.real (-49 / 4), .int 0])))
        (some ucx2)).writes, write.reason = .rewrite)
      ∧ ∃ write ∈ (plan (micEntries (literal (-6499999999) 8)) (some (answers (micReports
        [.float (.infinite true), .int 0]))) (some ucx2)).writes, write.reason = .mismatched := by
  have planned (level : String) (value : ℚ)
      (read : (desired (configOf (micDesk level))).toOption = some (micEntries value)) :
      desired (configOf (micDesk level)) = .ok (micEntries value) := by
    cases made : desired (configOf (micDesk level)) with
    | error problem => rw [made] at read; cases read
    | ok entries => rw [made] at read; exact congrArg Except.ok (Option.some.inj read)
  have distinct (value : ℚ) : ((micEntries value).map Entry.path).Nodup :=
    show [Path.link .input 1, .link .output 1, .mix 1 .input 1, .volume 1].Nodup by decide
  constructor
  · have settled := (converges (accepted_configOf (by decide +kernel)) (by decide +kernel)
      (planned "-12.5" (literal (-125) 1) (by decide +kernel)) (distinct _)
      (micDesk_held fun row =>
        .audible _ (-49 / 4) _ rfl (by decide +kernel) (by decide +kernel) (by decide +kernel))).2.mpr
    have clear : ∀ entry ∈ micEntries (literal (-125) 1), ¬Faint entry := by
      intro entry member
      simp only [micEntries, List.mem_cons, List.not_mem_nil, or_false] at member
      rcases member with rfl | rfl | rfl | rfl
      all_goals
        rintro ⟨level, pan, written, -, floor⟩
        cases written
      exact absurd floor (by decide +kernel)
    exact fun write inside => ((settled fun entry member _ _ => clear entry member).1 write inside).1
  · decide +kernel

end OscmixDesk
