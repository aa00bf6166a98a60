/-
**The silent cells of a base.**

Which crosspoints a base silences (`mem_baseEntries`), that it silences each once
(`silent_distinct`), and that it leaves alone what the routes set (`silent_not_routed`).
-/

import OscmixDesk.Proof.Desired

namespace OscmixDesk

/-! ### Pairs -/

theorem pairLeft_odd {left : ℕ} (odd : left % 2 = 1) : pairLeft left = left := by
  unfold pairLeft
  omega

theorem pairLeft_even {left : ℕ} (odd : left % 2 = 1) : pairLeft (left + 1) = left := by
  unfold pairLeft
  omega

theorem mem_addressed {link : Option Bool} {left channel : ℕ} :
    channel ∈ addressed link left ↔ channel = left ∨ link ≠ some true ∧ channel = left + 1 := by
  unfold addressed
  split
  · next linked => simp [linked]
  · next apart => simp [apart]

theorem addressed_nodup (link : Option Bool) (left : ℕ) : (addressed link left).Nodup := by
  unfold addressed
  split <;> simp

/-- Silence addresses only channels of its own pair. -/
theorem pairLeft_addressed {link : Option Bool} {left channel : ℕ} (odd : left % 2 = 1)
    (member : channel ∈ addressed link left) : pairLeft channel = left := by
  rcases mem_addressed.mp member with rfl | ⟨-, rfl⟩
  · exact pairLeft_odd odd
  · exact pairLeft_even odd

theorem mem_oddChannels {device : Device} {family : Family} {channel : ℕ} :
    channel ∈ oddChannels device family ↔ channel ∈ device.channelsFor family.name
      ∧ channel % 2 = 1 ∧ channel + 1 ∈ device.channelsFor family.name := by
  unfold oddChannels
  simp only [List.mem_filter, Bool.and_eq_true, decide_eq_true_eq, List.contains_iff_mem]

/-- On a table, the odd channels of a family are the odd numbers up to its count. -/
theorem Tabled.mem_odd {device : Device} (tabled : Tabled device) :
    ∃ half, 0 < half ∧ ∀ (family : Family) (channel : ℕ),
      (channel ∈ device.channelsFor family.name ↔ 1 ≤ channel ∧ channel ≤ 2 * half)
        ∧ (channel ∈ oddChannels device family ↔ channel % 2 = 1 ∧ channel < 2 * half) := by
  obtain ⟨half, positive, counted⟩ := tabled.mem_channels
  refine ⟨half, positive, fun family channel => ⟨counted family channel, ?_⟩⟩
  rw [mem_oddChannels, counted, counted]
  omega

theorem oddChannels_nodup {device : Device} (tabled : Tabled device) (family : Family) :
    (oddChannels device family).Nodup := by
  obtain ⟨half, -, counted⟩ := tabled.counted
  unfold oddChannels
  rw [counted]
  exact List.Nodup.filter _ List.nodup_range'

/-! ### The cells -/

/-- The silent cell of a target and a source channel. -/
def silentCell (routes : List Route) (out target : ℕ) (kind : Kind) (source channel : ℕ) :
    SilentCell where
  path := .mix target kind channel
  compared := (target = out || (declaredLink routes .output out).isSome)
    && (channel = source || (declaredLink routes kind.family source).isSome)

theorem mem_blockCells {routes : List Route} {out source : ℕ} {kind : Kind} {cell : SilentCell} :
    cell ∈ blockCells routes out kind source ↔
      ∃ target ∈ addressed (declaredLink routes .output out) out,
        ∃ channel ∈ addressed (declaredLink routes kind.family source) source,
          cell = silentCell routes out target kind source channel := by
  unfold blockCells silentCell
  simp only [List.mem_flatMap, List.mem_map, eq_comm]

/-- A base silences the addressed cells of its blocks that no route sets. -/
theorem mem_baseEntries {base : Base} {routes : List Route} {declared : List Path}
    {device : Device} {cell : SilentCell} :
    cell ∈ baseEntries base routes declared device ↔
      (∃ out ∈ oddChannels device .output, ∃ kind ∈ base.silences,
        ∃ source ∈ oddChannels device kind.family, cell ∈ blockCells routes out kind source)
      ∧ cell.path ∉ declared := by
  unfold baseEntries
  simp only [List.mem_filter, List.mem_flatMap, Bool.not_eq_true', List.contains_eq_mem,
    decide_eq_false_iff_not]

theorem blockCells_distinct (routes : List Route) (out : ℕ) (kind : Kind) (source : ℕ) :
    ((blockCells routes out kind source).map SilentCell.path).Nodup := by
  unfold blockCells
  rw [List.map_flatMap, List.nodup_flatMap]
  constructor
  · intro target _
    rw [List.map_map]
    exact (addressed_nodup _ _).map fun first second same => (Path.mix.inj same).2.2
  · refine (addressed_nodup _ _).imp_of_mem fun {first second} _ _ apart => ?_
    refine List.disjoint_left.mpr ?_
    intro path left right
    simp only [List.map_map, List.mem_map, Function.comp_apply] at left right
    obtain ⟨_, -, rfl⟩ := left
    obtain ⟨_, -, same⟩ := right
    exact apart (Path.mix.inj same).1.symm

/-- The path of a block's cell names the block. -/
theorem blockCells_path {routes : List Route} {out source : ℕ} {kind : Kind} {path : Path}
    (oddOut : out % 2 = 1) (oddSource : source % 2 = 1)
    (member : path ∈ (blockCells routes out kind source).map SilentCell.path) :
    ∃ target channel, path = .mix target kind channel ∧ pairLeft target = out
      ∧ pairLeft channel = source := by
  obtain ⟨cell, known, rfl⟩ := List.mem_map.mp member
  obtain ⟨target, inOut, channel, inSource, rfl⟩ := mem_blockCells.mp known
  exact ⟨target, channel, rfl, pairLeft_addressed oddOut inOut,
    pairLeft_addressed oddSource inSource⟩

theorem silences_nodup (base : Base) : base.silences.Nodup := by
  cases base <;> decide

/-- A base silences every register once. -/
theorem baseEntries_distinct {base : Base} {routes : List Route} {declared : List Path}
    {device : Device} (tabled : Tabled device) :
    ((baseEntries base routes declared device).map SilentCell.path).Nodup := by
  unfold baseEntries
  refine List.Nodup.sublist (List.Sublist.map _ List.filter_sublist) ?_
  rw [List.map_flatMap, List.nodup_flatMap]
  constructor
  · intro out outMember
    have oddOut := (mem_oddChannels.mp outMember).2.1
    rw [List.map_flatMap, List.nodup_flatMap]
    constructor
    · intro kind _
      rw [List.map_flatMap, List.nodup_flatMap]
      refine ⟨fun source _ => blockCells_distinct routes out kind source, ?_⟩
      refine (oddChannels_nodup tabled _).imp_of_mem fun {first second} mine theirs apart => ?_
      refine List.disjoint_left.mpr ?_
      intro path left right
      obtain ⟨_, _, rfl, -, here⟩ :=
        blockCells_path oddOut (mem_oddChannels.mp mine).2.1 left
      obtain ⟨_, _, same, -, there⟩ :=
        blockCells_path oddOut (mem_oddChannels.mp theirs).2.1 right
      obtain ⟨-, -, rfl⟩ := Path.mix.inj same
      exact apart (here.symm.trans there)
    · refine (silences_nodup base).imp_of_mem fun {first second} _ _ apart => ?_
      refine List.disjoint_left.mpr ?_
      intro path left right
      simp only [List.map_flatMap, List.mem_flatMap] at left right
      obtain ⟨source, mine, left⟩ := left
      obtain ⟨source', theirs, right⟩ := right
      obtain ⟨_, _, rfl, -, -⟩ := blockCells_path oddOut (mem_oddChannels.mp mine).2.1 left
      obtain ⟨_, _, same, -, -⟩ := blockCells_path oddOut (mem_oddChannels.mp theirs).2.1 right
      exact apart (Path.mix.inj same).2.1
  · refine (oddChannels_nodup tabled _).imp_of_mem fun {first second} mine theirs apart => ?_
    refine List.disjoint_left.mpr ?_
    intro path left right
    simp only [List.map_flatMap, List.mem_flatMap] at left right
    obtain ⟨kind, -, source, known, left⟩ := left
    obtain ⟨kind', -, source', known', right⟩ := right
    obtain ⟨_, _, rfl, here, -⟩ := blockCells_path (mem_oddChannels.mp mine).2.1
      (mem_oddChannels.mp known).2.1 left
    obtain ⟨_, _, same, there, -⟩ := blockCells_path (mem_oddChannels.mp theirs).2.1
      (mem_oddChannels.mp known').2.1 right
    obtain ⟨rfl, -, -⟩ := Path.mix.inj same
    exact apart (here.symm.trans there)

/-! ### The cells of a configuration -/

section Config

variable {config : Config}

theorem mem_silentEntries {entry : Entry} :
    entry ∈ silentEntries config ↔ ∃ device, deviceForName config.deviceName = some device ∧
      ∃ cell ∈ baseEntries config.base config.routes (routeEntries config.routes).keys device,
        entry = cell.entry := by
  unfold silentEntries
  cases modelled : deviceForName config.deviceName with
  | none => simp
  | some device => simp [eq_comm]

theorem silent_distinct : ((silentEntries config).map (·.path)).Nodup := by
  unfold silentEntries
  cases modelled : deviceForName config.deviceName with
  | none => exact List.nodup_nil
  | some device =>
      rw [List.map_map]
      exact baseEntries_distinct (deviceForName_tabled modelled)

/-- No route sets a register the base silences. -/
theorem silent_not_routed {entry : Entry} (silent : entry ∈ silentEntries config) :
    entry.path ∉ (routeEntries config.routes).keys := by
  obtain ⟨device, -, cell, member, rfl⟩ := mem_silentEntries.mp silent
  exact (mem_baseEntries.mp member).2

/-- A silent cell is a crosspoint, written in the phase of the mix, at the explicit zero. -/
theorem silent_shape {entry : Entry} (silent : entry ∈ silentEntries config) :
    (∃ target kind channel, entry.path = .mix target kind channel) ∧ entry.phase = .mix
      ∧ entry.base = true ∧ entry.tags = "fi" ∧ entry.args = [.real levelMin, .int 0] := by
  obtain ⟨device, -, cell, member, rfl⟩ := mem_silentEntries.mp silent
  obtain ⟨⟨out, oddOut, kind, -, source, oddSource, inBlock⟩, -⟩ := mem_baseEntries.mp member
  obtain ⟨target, channel, same, -, -⟩ := blockCells_path (mem_oddChannels.mp oddOut).2.1
    (mem_oddChannels.mp oddSource).2.1 (List.mem_map_of_mem inBlock)
  exact ⟨⟨target, kind, channel, same⟩, rfl, rfl, rfl, rfl⟩

end Config

end OscmixDesk
