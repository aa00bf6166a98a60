/-
**What the two device tables have in common.**

A proof about every accepted configuration meets the register table through a few facts: no two rows
share a template, the three families count their channels from one to the same even number, a row
with a quantity is a scaled float or a plain integer, a sub-family's rows have every channel of their
family. `Tabled` collects them; `deviceForName_tabled` proves them of every device that a name
selects. A change of a table is a change here and nowhere else.
-/

import OscmixDesk.Model.Reconcile

set_option maxRecDepth 100000

namespace OscmixDesk

/-- The one template with several rows. -/
def gainTemplate : Template :=
  .channel .input (.flat "gain")

/-- Whether a row's declared tags fit its domain. -/
def Register.tagged (row : Register) : Bool :=
  match row.domain with
  | some .number => (row.startsWith 'f' && row.scale.isSome)
      || (!row.startsWith 'f' && row.startsWith 'i' && row.scale.isNone)
  | some .bool => !row.startsWith 'f'
  | some .enum => row.values.isEmpty || row.values.length = row.choices.length
  | none => true

/-- Whether a row of a sub-family has every channel of its family. -/
def Device.whole (device : Device) (row : Register) : Bool :=
  match row.template with
  | .channel family (.nested _ _) => row.channels = family.name
  | .channel family (.flat option) =>
      !isNestedFamily (some device) family option || row.channels = family.name
  | _ => true

/-- Whether a row keeps the links and the playback columns out of the sections, and the invented name
of a family's switch out of its options. -/
def Register.owned (row : Register) : Bool :=
  match row.template with
  | .channel .playback setting => row.domain = none
      || (setting = .flat "mute" && row.domain = some .bool && row.channels = "playback")
  | .channel _ (.flat option) => option ≠ "stereo" || row.domain = none
  | .channel _ (.nested _ option) => option ≠ enableOption
  | .global _ (some option) => option ≠ enableOption
  | _ => true

/-- What the proofs use of a device's table. -/
structure Tabled (device : Device) : Prop where
  distinct : ((device.registers.filter (·.template ≠ gainTemplate)).map (·.template)).Nodup
  tagged : ∀ row ∈ device.registers, row.tagged
  whole : ∀ row ∈ device.registers, device.whole row
  owned : ∀ row ∈ device.registers, row.owned
  /-- The template with several rows is no sub-family's switch. -/
  gainAlone : isNestedFamily (some device) .input "gain" = false
  /-- The channels of every family are `1 … 2k`, the same for each. -/
  counted : ∃ half, 0 < half ∧ ∀ family : Family, device.channelsFor family.name = seq 1 (2 * half)

theorem ucx2_tabled : Tabled ucx2 where
  distinct := by decide +kernel
  tagged := by decide +kernel
  whole := by decide +kernel
  owned := by decide +kernel
  gainAlone := by decide +kernel
  counted := ⟨10, by decide, fun family => by cases family <;> decide⟩

theorem ff802_tabled : Tabled ff802 where
  distinct := by decide
  tagged := by decide
  whole := by decide
  owned := by decide
  gainAlone := by decide
  counted := ⟨15, by decide, fun family => by cases family <;> decide⟩

/-- A name selects one of the two devices, if any. -/
theorem deviceForName_cases {name : String} {device : Device}
    (named : deviceForName name = some device) : device = ucx2 ∨ device = ff802 := by
  have member : device ∈ devices := List.mem_of_find?_eq_some named
  simpa [devices] using member

theorem deviceForName_tabled {name : String} {device : Device}
    (named : deviceForName name = some device) : Tabled device := by
  rcases deviceForName_cases named with rfl | rfl
  · exact ucx2_tabled
  · exact ff802_tabled

namespace Tabled

variable {device : Device} {row : Register}

/-- A row below a sub-family has every channel of its family. -/
theorem nested_channels (tabled : Tabled device) (member : row ∈ device.registers)
    {family : Family} {sub option : String}
    (template : row.template = .channel family (.nested sub option)) :
    row.channels = family.name := by
  have whole := tabled.whole row member
  rw [Device.whole, template] at whole
  exact of_decide_eq_true whole

/-- So has the switch of a sub-family. -/
theorem switch_channels (tabled : Tabled device) (member : row ∈ device.registers)
    {family : Family} {sub : String} (template : row.template = .channel family (.flat sub))
    (nested : isNestedFamily (some device) family sub) : row.channels = family.name := by
  have whole := tabled.whole row member
  rw [Device.whole, template] at whole
  simp only [nested, Bool.not_true, Bool.false_or] at whole
  exact of_decide_eq_true whole

/-- A settable row of playback is the mute. -/
theorem playback_mute (tabled : Tabled device) (member : row ∈ device.registers)
    {setting : Setting} (template : row.template = .channel .playback setting)
    (settable : row.domain ≠ none) :
    setting = .flat "mute" ∧ row.domain = some .bool ∧ row.channels = "playback" := by
  have owned := tabled.owned row member
  rw [Register.owned, template] at owned
  simp only [Bool.or_eq_true, decide_eq_true_eq, settable, false_or, Bool.and_eq_true] at owned
  exact ⟨owned.1.1, owned.1.2, owned.2⟩

/-- No settable row is a link. -/
theorem settable_ne_link (tabled : Tabled device) (member : row ∈ device.registers)
    {family : Family} (settable : row.domain ≠ none) :
    row.template ≠ .channel family (.flat "stereo") := by
  intro template
  have owned := tabled.owned row member
  cases family with
  | playback =>
      have mute := (tabled.playback_mute member template settable).1
      simp at mute
  | input =>
      rw [Register.owned, template] at owned
      simp [settable] at owned
  | output =>
      rw [Register.owned, template] at owned
      simp [settable] at owned

/-- The invented name of a sub-family's switch is no option of it. -/
theorem nested_ne_enable (tabled : Tabled device) (member : row ∈ device.registers)
    {family : Family} {sub option : String}
    (template : row.template = .channel family (.nested sub option))
    (settable : row.domain ≠ none) : option ≠ enableOption := by
  have owned := tabled.owned row member
  cases family with
  | playback =>
      obtain ⟨impossible, -, -⟩ := tabled.playback_mute member template settable
      cases impossible
  | input =>
      rw [Register.owned, template] at owned
      exact of_decide_eq_true owned
  | output =>
      rw [Register.owned, template] at owned
      exact of_decide_eq_true owned

/-- Two rows of one template are one row, unless they are gains. -/
theorem row_unique (tabled : Tabled device) {first second : Register}
    (member : first ∈ device.registers) (member' : second ∈ device.registers)
    (same : first.template = second.template) (notGain : first.template ≠ gainTemplate) :
    first = second := by
  refine List.inj_on_of_nodup_map tabled.distinct ?_ ?_ same
  · exact List.mem_filter.mpr ⟨member, by simpa using notGain⟩
  · exact List.mem_filter.mpr ⟨member', by simpa using same ▸ notGain⟩

/-- The channels of a family are those up to its count. -/
theorem mem_channels (tabled : Tabled device) :
    ∃ half, 0 < half ∧ ∀ (family : Family) (channel : ℕ),
      channel ∈ device.channelsFor family.name ↔ 1 ≤ channel ∧ channel ≤ 2 * half := by
  obtain ⟨half, positive, counted⟩ := tabled.counted
  refine ⟨half, positive, fun family channel => ?_⟩
  rw [counted, seq, List.mem_range']
  constructor
  · rintro ⟨offset, bound, rfl⟩
    omega
  · rintro ⟨low, high⟩
    exact ⟨channel - 1, by omega, by omega⟩

end Tabled

end OscmixDesk
