/-
**Muted playback channels.**

A mute of a playback channel sends the channel's whole column, of a linked pair both; an edit of a muted channel
only changes the cache. So from the first accepted mute on, what the device was last sent for a column is what
the flag and the cache say. The two channels of a pair share a flag as long as they agree on being linked.

* `muteplayback_cases` — what a mute does;
* `Kept` — the invariant of a column, with `step_kept` over one command and `run_kept` over many;
* `columnsFollow` — the columns over every run.
-/

import Mathlib.Data.List.Find
import Mathlib.Data.List.ProdSigma
import OscmixDesk.Foundation.LastWins
import OscmixDesk.Proof.Edits

namespace OscmixDesk.Matrix

variable {F : Type} {D : Device} {A : Arithmetic F}

/-! ### What a mute does -/

/-- The first channel of the pair that an index is in, which starts at an even channel. -/
def Device.firstOf (D : Device) (inp : ℕ) : ℕ :=
  if (inp - D.inputslen) % 2 = 1 then inp - 1 else inp

/-- The channels that a mute addresses. -/
def State.columns (D : Device) (σ : State F) (inp : ℕ) : List ℕ :=
  if σ.instereo inp then [D.firstOf inp, D.firstOf inp + 1] else [inp]

/-- A crosspoint as a mute prepares it. -/
def prepared (D : Device) (σ : State F) (out inp : ℕ) : Prepared F :=
  ⟨inp, out, D.ctltoreg .mixLevel inp out, σ.mix out inp⟩

/-- Addresses of their own, within what a word holds, and coefficients that may be sent. -/
structure Sound (A : Arithmetic F) (words : List (Prepared F)) : Prop where
  distinct : (words.map Prepared.reg).Nodup
  mapped : ∀ p ∈ words, 0 ≤ p.reg ∧ p.reg ≤ 0x7fff
  admitted : ∀ p ∈ words, A.admits p.level = true

theorem prepareWord_eq_some {σ : State F} {out inp : ℕ} {words result : List (Prepared F)}
    (prepare : prepareWord D A σ out inp words = some result) (sound : Sound A words) :
    result = words ++ [prepared D σ out inp] ∧ Sound A result := by
  unfold prepareWord at prepare
  dsimp only at prepare
  split at prepare
  · cases prepare
  · rename_i passed
    simp only [Bool.or_eq_true, decide_eq_true_eq, Bool.not_eq_true', not_or, Bool.not_eq_false, not_lt] at passed
    obtain ⟨⟨⟨low, high⟩, admitted⟩, fresh⟩ := passed
    obtain rfl : words ++ [prepared D σ out inp] = result := Option.some.inj prepare
    refine ⟨rfl, ?_, ?_, ?_⟩
    · rw [List.map_append, List.map_singleton, List.nodup_append]
      refine ⟨sound.distinct, List.nodup_singleton _, ?_⟩
      rintro reg member _ inside rfl
      obtain ⟨p, inner, rfl⟩ := List.mem_map.mp member
      apply fresh
      rw [List.any_eq_true]
      exact ⟨p, inner, beq_iff_eq.mpr (List.mem_singleton.mp inside)⟩
    · intro p member
      rcases List.mem_append.mp member with member | member
      · exact sound.mapped p member
      · obtain rfl := List.mem_singleton.mp member
        exact ⟨low, high⟩
    · intro p member
      rcases List.mem_append.mp member with member | member
      · exact sound.admitted p member
      · obtain rfl := List.mem_singleton.mp member
        exact admitted

/-- Steps that each add words to sound ones, where they do not refuse. -/
theorem foldlM_prepares {α : Type} {step : List (Prepared F) → α → Option (List (Prepared F))}
    {added : α → List (Prepared F)}
    (adds : ∀ words x result, step words x = some result → Sound A words →
      result = words ++ added x ∧ Sound A result)
    {items : List α} {words result : List (Prepared F)} (folded : items.foldlM step words = some result)
    (sound : Sound A words) : result = words ++ items.flatMap added ∧ Sound A result := by
  induction items generalizing words with
  | nil =>
      cases folded
      exact ⟨by simp, sound⟩
  | cons x items ih =>
      rw [List.foldlM_cons, Option.bind_eq_bind, Option.bind_eq_some_iff] at folded
      obtain ⟨next, first, rest⟩ := folded
      obtain ⟨rfl, sound⟩ := adds words x next first sound
      obtain ⟨rfl, sound⟩ := ih rest sound
      exact ⟨by rw [List.flatMap_cons, List.append_assoc], sound⟩

/-- The prepared columns are the crosspoints, output by output. -/
theorem prepareColumns_eq_some {σ : State F} {inp width : ℕ} {words : List (Prepared F)}
    (prepare : prepareColumns D A σ inp width = some words) :
    words = (List.range D.outputslen ×ˢ (List.range width).map (inp + ·)).map
      (fun p => prepared D σ p.1 p.2) ∧ Sound A words := by
  have empty : Sound A ([] : List (Prepared F)) := ⟨List.nodup_nil, by simp, by simp⟩
  obtain ⟨rfl, sound⟩ := @foldlM_prepares F A ℕ _
    (fun out => (List.range width).flatMap fun i => [prepared D σ out (inp + i)])
    (by
      intro words out result prepare sound
      split at prepare
      · cases prepare
      · exact foldlM_prepares (fun words i result => prepareWord_eq_some) prepare sound)
    _ _ _ prepare empty
  refine ⟨?_, sound⟩
  rw [List.nil_append]
  simp only [SProd.sprod, List.product, List.map_eq_flatMap, List.flatMap_assoc, List.flatMap_cons,
    List.flatMap_nil, List.append_nil]

/-- An accepted mute: the frame is of the columns' words, and their flags change, nothing else. -/
structure Muted (D : Device) (A : Arithmetic F) (σ τ : State F) (inp : ℕ) (mute : Bool) (frame : Packet) :
    Prop where
  words : frame = (List.range D.outputslen ×ˢ σ.columns D inp).map
    fun p => ⟨.mixLevel, p.2, p.1, D.ctltoreg .mixLevel p.2 p.1,
      mixlevelvalue A (if mute then A.zero else σ.mix p.1 p.2)⟩
  distinct : (frame.map Word.reg).Nodup
  playback : D.inputslen ≤ inp
  mix : τ.mix = σ.mix
  instereo : τ.instereo = σ.instereo
  flags : ∀ c, τ.mute c = if c ∈ σ.columns D inp then mute else σ.mute c
  linked : σ.instereo inp = true → σ.instereo (D.firstOf inp) = true ∧ σ.instereo (D.firstOf inp + 1) = true

/-- The frame of prepared columns. -/
theorem frame_of_prepared {σ : State F} {first width : ℕ} {words : List (Prepared F)} (mute : Bool)
    (prepare : prepareColumns D A σ first width = some words) :
    (words.map (Prepared.word A mute) = (List.range D.outputslen ×ˢ (List.range width).map (first + ·)).map
      fun p => ⟨.mixLevel, p.2, p.1, D.ctltoreg .mixLevel p.2 p.1,
        mixlevelvalue A (if mute then A.zero else σ.mix p.1 p.2)⟩) ∧
      ((words.map (Prepared.word A mute)).map Word.reg).Nodup := by
  obtain ⟨rfl, sound⟩ := prepareColumns_eq_some prepare
  have distinct := sound.distinct
  refine ⟨by rw [List.map_map]; rfl, ?_⟩
  rw [List.map_map] at distinct ⊢
  rw [List.map_map]
  exact distinct

/-- A mute is refused, sends nothing and changes nothing, or sends one frame. -/
theorem muteplayback_cases (σ : State F) (inp : ℕ) (mute : Bool) :
    muteplayback D A σ inp mute = (-1, σ, []) ∨
      ∃ τ frame, muteplayback D A σ inp mute = (0, τ, [frame]) ∧ Muted D A σ τ inp mute frame := by
  unfold muteplayback
  split
  · exact .inl rfl
  · split
    · exact .inl rfl
    · rename_i range
      have playback : D.inputslen ≤ inp := by omega
      cases linked : σ.instereo inp with
      | false =>
          have columns : σ.columns D inp = [inp] := by simp [State.columns, linked]
          simp only [linked, Bool.false_and, Bool.false_eq_true, if_false, or_false, Nat.add_sub_cancel' playback]
          split
          · exact .inl rfl
          · split
            · exact .inl rfl
            · rename_i words prepare
              obtain ⟨words, distinct⟩ := frame_of_prepared mute prepare
              refine .inr ⟨_, _, rfl, ?_, distinct, playback, rfl, rfl, ?_, by simp [linked]⟩
              · rw [words, columns]
                simp
              · intro c
                simp [State.setMute, columns]
      | true =>
          have columns : σ.columns D inp = [D.firstOf inp, D.firstOf inp + 1] := by simp [State.columns, linked]
          have start : (if (true && (inp - D.inputslen) % 2 == 1) = true then inp - 1 else inp) =
              D.firstOf inp := by
            simp [Device.firstOf]
          simp only [if_true, start]
          generalize found : (if (true && (inp - D.inputslen) % 2 == 1) = true then inp - D.inputslen - 1
            else inp - D.inputslen) = channel
          have first : D.inputslen + channel = D.firstOf inp := by
            rw [← found]
            unfold Device.firstOf
            grind
          rw [first]
          split
          · exact .inl rfl
          · rename_i agree
            split
            · exact .inl rfl
            · rename_i words prepare
              obtain ⟨words, distinct⟩ := frame_of_prepared mute prepare
              refine .inr ⟨_, _, rfl, ?_, distinct, playback, rfl, rfl, ?_, ?_⟩
              · rw [words, columns]
                rfl
              · intro c
                simp only [State.setMute, columns, List.mem_cons, List.not_mem_nil, or_false]
                grind
              · intro _
                simp only [not_or, Bool.true_and, Bool.or_eq_true, Bool.not_eq_true', Bool.not_eq_false] at agree
                exact agree.2

/-! ### What the device was last sent -/

/-- What a word is for. -/
def Word.key (word : Word) : Control × ℕ × ℕ :=
  (word.control, word.inp, word.out)

/-- The value of the coefficient last sent for a crosspoint. -/
def lastSent (sent : List Packet) (inp out : ℕ) : Option ℤ :=
  (lastOf Word.key (.mixLevel, inp, out) sent.flatten).map Word.val

/-- The value last sent to an address. -/
def lastAt (sent : List Packet) (reg : ℤ) : Option ℤ :=
  (lastOf Word.reg reg sent.flatten).map Word.val

/-- The value that the flag and the cache ask for. -/
def State.due (A : Arithmetic F) (σ : State F) (inp out : ℕ) : ℤ :=
  if σ.mute inp then 0 else mixlevelvalue A (σ.mix out inp)

section LastSent

variable {sent : List Packet} {packet : Packet} {inp out : ℕ}

/-- Coefficient words of playback channels, at the addresses that the device has for them. -/
def Told (D : Device) (words : List Word) : Prop :=
  ∀ word ∈ words, word.control = .mixLevel ∧ word.reg = D.ctltoreg .mixLevel word.inp word.out ∧
    D.inputslen ≤ word.inp

theorem lastSent_of_mem (told : Told D packet) (distinct : (packet.map Word.reg).Nodup) {word : Word}
    (member : word ∈ packet) : lastSent (sent ++ [packet]) word.inp word.out = some word.val := by
  have keys : (packet.map Word.key).Nodup := by
    apply List.Nodup.of_map (fun k : Control × ℕ × ℕ => D.ctltoreg .mixLevel k.2.1 k.2.2)
    rw [List.map_map]
    rwa [List.map_congr_left fun word member => (told word member).2.1] at distinct
  have key : word.key = (.mixLevel, word.inp, word.out) := by
    rw [Word.key, (told word member).1]
  unfold lastSent
  rw [List.flatten_append, List.flatten_singleton, lastOf_append, ← key, lastOf_of_distinct keys member]
  rfl

theorem lastSent_of_not_mem (outside : ∀ word ∈ packet, word.inp = inp → word.out ≠ out) :
    lastSent (sent ++ [packet]) inp out = lastSent sent inp out := by
  have none : lastOf Word.key (.mixLevel, inp, out) packet = none := by
    rw [lastOf_eq_none]
    intro word member same
    exact outside word member (congrArg (·.2.1) same) (congrArg (·.2.2) same)
  unfold lastSent
  rw [List.flatten_append, List.flatten_singleton, lastOf_append, none, Option.none_or]

/-- At an address of its own, a crosspoint's coefficient is what the address was last sent. -/
theorem lastAt_of_alone (told : Told D sent.flatten)
    (alone : ∀ inp' out', D.inputslen ≤ inp' →
      D.ctltoreg .mixLevel inp' out' = D.ctltoreg .mixLevel inp out → inp' = inp ∧ out' = out) :
    lastAt sent (D.ctltoreg .mixLevel inp out) = lastSent sent inp out := by
  unfold lastAt lastSent lastOf
  congr 1
  apply List.find?_congr
  intro word member
  obtain ⟨control, reg, playback⟩ := told word (List.mem_reverse.mp member)
  rw [decide_eq_decide, reg, Word.key, control]
  constructor
  · intro same
    obtain ⟨same, also⟩ := alone _ _ playback same
    rw [same, also]
  · intro same
    simp only [Prod.mk.injEq, true_and] at same
    rw [same.1, same.2]

end LastSent

/-! ### The columns over a run -/

/-- Playback channels are in pairs from an even index on, and the two of a pair agree on being linked. -/
structure Paired (D : Device) (σ : State F) : Prop where
  even : D.inputslen % 2 = 0
  agree : ∀ c, D.inputslen ≤ c → c % 2 = 0 → σ.instereo c = σ.instereo (c + 1)

/-- What the device was last sent for a column is what the flag and the cache ask for, and a linked pair has one
flag. -/
structure Kept (D : Device) (A : Arithmetic F) (σ : State F) (sent : List Packet) (c : ℕ) : Prop where
  follows : ∀ out < D.outputslen, lastSent sent c out = some (σ.due A c out)
  flags : σ.instereo c = true → σ.mute (D.firstOf c) = σ.mute (D.firstOf c + 1)

section Columns

variable {σ τ : State F} {sent : List Packet} {c inp : ℕ}

theorem Paired.firstOf (paired : Paired D σ) (playback : D.inputslen ≤ inp) :
    D.firstOf inp = (if inp % 2 = 1 then inp - 1 else inp) ∧ D.inputslen ≤ D.firstOf inp ∧
      D.firstOf inp % 2 = 0 := by
  have even := paired.even
  unfold Device.firstOf
  grind

/-- Both channels of a pair are linked or neither is. -/
theorem Paired.instereo_eq (paired : Paired D σ) (playback : D.inputslen ≤ inp)
    (same : c = D.firstOf inp ∨ c = D.firstOf inp + 1) : σ.instereo c = σ.instereo inp := by
  obtain ⟨first, low, even⟩ := paired.firstOf playback
  have agree := paired.agree _ low even
  rcases same with rfl | rfl
  · split at first
    · rw [agree, first, Nat.sub_add_cancel (by omega)]
    · rw [first]
  · split at first
    · rw [first, Nat.sub_add_cancel (by omega)]
    · rw [← agree, first]

theorem Paired.firstOf_eq (paired : Paired D σ) (playback : D.inputslen ≤ inp)
    (same : c = D.firstOf inp ∨ c = D.firstOf inp + 1) : D.firstOf c = D.firstOf inp := by
  obtain ⟨first, low, even⟩ := paired.firstOf playback
  have base := paired.even
  rcases same with rfl | rfl
  · unfold Device.firstOf at *
    grind
  · unfold Device.firstOf at *
    grind

/-- The first channel that an edit addresses is a playback channel, of a linked pair the first. -/
theorem Paired.address_inp (paired : Paired D σ) (playback : D.inputslen ≤ inp) (out : ℕ) (instereo : Bool) :
    D.inputslen ≤ (σ.address out inp instereo).inp ∧
      ((σ.address out inp instereo).instereo = true →
        (σ.address out inp instereo).inp = D.firstOf inp ∧ σ.instereo inp = true) := by
  obtain ⟨first, low, even⟩ := paired.firstOf playback
  unfold State.address
  dsimp only
  cases linked : (instereo && σ.instereo inp) with
  | false => exact ⟨playback, by simp⟩
  | true =>
      simp only [Bool.true_and, beq_iff_eq, ← first]
      refine ⟨low, fun _ => ⟨trivial, ?_⟩⟩
      rw [Bool.and_eq_true] at linked
      exact linked.2

theorem Address.mem_crosspoints {a : Address} {c out : ℕ} (member : (c, out) ∈ a.crosspoints) :
    c = a.inp ∨ a.instereo = true ∧ c = a.inp + 1 := by
  unfold Address.crosspoints at member
  grind

/-- A channel that an edit addresses is muted when the first one is. -/
theorem Kept.mute_eq (kept : Kept D A σ sent c) (paired : Paired D σ) (playback : D.inputslen ≤ inp)
    {out out' : ℕ} {instereo : Bool} (member : (c, out') ∈ (σ.address out inp instereo).crosspoints) :
    σ.mute c = σ.mute (σ.address out inp instereo).inp := by
  obtain ⟨-, pair⟩ := paired.address_inp playback out instereo
  rcases Address.mem_crosspoints member with rfl | ⟨linked, second⟩
  · rfl
  · obtain ⟨first, stereo⟩ := pair linked
    rw [first] at second ⊢
    have flags := kept.flags (by rw [paired.instereo_eq playback (.inr second), stereo])
    rw [paired.firstOf_eq playback (.inr second)] at flags
    rw [flags, second]

theorem Committed.told {a : Address} {gained : Packet} (committed : Committed D A σ τ a [] gained)
    (playback : D.inputslen ≤ a.inp) : Told D gained := by
  intro word member
  have same := committed.gains.word member
  refine ⟨congrArg Word.control same, congrArg Word.reg same, ?_⟩
  have subject := List.mem_map_of_mem (f := fun word : Word => (word.inp, word.out)) member
  rw [committed.gains.subjects] at subject
  split at subject
  · cases subject
  · rcases Address.mem_crosspoints subject with same | ⟨-, same⟩
    · rw [same]
      exact playback
    · rw [same]
      omega

/-- A committed edit of a playback channel keeps every column. -/
theorem Committed.kept {gained : Packet} {out : ℕ} {instereo : Bool}
    (committed : Committed D A σ τ (σ.address out inp instereo) [] gained) (paired : Paired D σ)
    (playback : D.inputslen ≤ inp) (kept : Kept D A σ sent c) : Kept D A τ (sent ++ [gained]) c := by
  have told := committed.told (paired.address_inp playback out instereo).1
  have subjects := committed.gains.subjects
  refine ⟨?_, ?_⟩
  · intro out' below
    have before := kept.follows out' below
    have flag : τ.mute c = σ.mute c := by rw [committed.mute]
    by_cases member : (c, out') ∈ (gained.map fun word => (word.inp, word.out))
    · obtain ⟨word, inside, same⟩ := List.mem_map.mp member
      obtain ⟨rfl, rfl⟩ := Prod.mk.inj same
      rw [lastSent_of_mem told committed.gains.distinct inside]
      rw [subjects] at member
      split at member
      · cases member
      · rename_i sounding
        have muted := kept.mute_eq paired playback member
        have value := congrArg Word.val (committed.gains.word inside)
        rw [State.due, flag, muted, if_neg sounding, value]
        rfl
    · rw [lastSent_of_not_mem, before]
      · rw [subjects] at member
        unfold State.due
        rw [flag]
        by_cases addressed : (c, out') ∈ (σ.address out inp instereo).crosspoints
        · -- the words of a muted channel stay unsent, and what it is due is zero either way
          have muted := kept.mute_eq paired playback addressed
          split at member
          · rename_i silent
            rw [muted, silent]
            rfl
          · exact absurd addressed member
        · rw [committed.elsewhere _ _ addressed]
      · intro word inside same also
        exact member (List.mem_map.mpr ⟨word, inside, by rw [same, also]⟩)
  · rw [committed.instereo, committed.mute]
    exact kept.flags

/-- A mute addresses both channels of a linked pair or neither. -/
theorem Paired.mem_columns (paired : Paired D σ) (muted : D.inputslen ≤ inp) (playback : D.inputslen ≤ c)
    (linked : σ.instereo c = true) :
    D.firstOf c ∈ σ.columns D inp ↔ D.firstOf c + 1 ∈ σ.columns D inp := by
  obtain ⟨-, -, even⟩ := paired.firstOf playback
  obtain ⟨-, -, also⟩ := paired.firstOf muted
  unfold State.columns
  split
  · simp only [List.mem_cons, List.not_mem_nil, or_false]
    omega
  · rename_i single
    simp only [List.mem_cons, List.not_mem_nil, or_false]
    constructor
    · rintro rfl
      rw [paired.instereo_eq playback (.inl rfl)] at single
      exact absurd linked single
    · rintro rfl
      rw [paired.instereo_eq playback (.inr rfl)] at single
      exact absurd linked single

section Muted

variable {mute : Bool} {frame : Packet} (muted : Muted D A σ τ inp mute frame)

include muted

/-- The words of a frame are those of the columns. -/
theorem Muted.mem_frame {word : Word} : word ∈ frame ↔ word.out < D.outputslen ∧ word.inp ∈ σ.columns D inp ∧
    word = coefficientWord D A word.inp word.out (if mute then A.zero else σ.mix word.out word.inp) := by
  rw [muted.words, List.mem_map]
  constructor
  · rintro ⟨⟨out, inp⟩, member, rfl⟩
    rw [List.mem_product, List.mem_range] at member
    exact ⟨member.1, member.2, rfl⟩
  · rintro ⟨below, member, same⟩
    exact ⟨(word.out, word.inp), List.mem_product.mpr ⟨List.mem_range.mpr below, member⟩, same.symm⟩

theorem Muted.mem_columns (paired : Paired D σ) (member : c ∈ σ.columns D inp) :
    D.inputslen ≤ c ∧ σ.instereo c = σ.instereo inp ∧
      (σ.instereo inp = true → c = D.firstOf inp ∨ c = D.firstOf inp + 1) := by
  obtain ⟨-, low, -⟩ := paired.firstOf muted.playback
  unfold State.columns at member
  split at member
  · rename_i linked
    simp only [List.mem_cons, List.not_mem_nil, or_false] at member
    refine ⟨by omega, paired.instereo_eq muted.playback member, fun _ => member⟩
  · rename_i single
    obtain rfl := List.mem_singleton.mp member
    exact ⟨muted.playback, rfl, fun linked => absurd linked single⟩

theorem Muted.told (paired : Paired D σ) : Told D frame := by
  intro word member
  obtain ⟨-, column, same⟩ := muted.mem_frame.mp member
  exact ⟨congrArg Word.control same, congrArg Word.reg same, (muted.mem_columns paired column).1⟩

/-- An accepted mute leaves its columns as the flag and the cache ask for. -/
theorem Muted.follows (paired : Paired D σ) (member : c ∈ σ.columns D inp) :
    ∀ out < D.outputslen, lastSent (sent ++ [frame]) c out = some (τ.due A c out) := by
  intro out below
  have inside : coefficientWord D A c out (if mute then A.zero else σ.mix out c) ∈ frame :=
    muted.mem_frame.mpr ⟨below, member, rfl⟩
  have last := @lastSent_of_mem D sent frame (muted.told paired) muted.distinct _ inside
  rw [coefficientWord] at last
  rw [last, State.due, muted.flags, if_pos member, muted.mix]
  cases mute with
  | false => rfl
  | true => simp [mixlevelvalue, A.scaled_zero]

theorem Muted.flags_eq (paired : Paired D σ) (playback : D.inputslen ≤ c) (linked : σ.instereo c = true)
    (same : c ∉ σ.columns D inp → σ.mute (D.firstOf c) = σ.mute (D.firstOf c + 1)) :
    τ.mute (D.firstOf c) = τ.mute (D.firstOf c + 1) := by
  have both := paired.mem_columns muted.playback playback linked
  obtain ⟨first, -, -⟩ := paired.firstOf playback
  rw [muted.flags, muted.flags]
  by_cases member : D.firstOf c ∈ σ.columns D inp
  · rw [if_pos member, if_pos (both.mp member)]
  · rw [if_neg member, if_neg (mt both.mpr member)]
    apply same
    intro inside
    split at first
    · have second : c = D.firstOf c + 1 := by omega
      rw [second] at inside
      exact member (both.mpr inside)
    · rw [first] at member
      exact member inside

/-- From an accepted mute on, its columns are kept. -/
theorem Muted.kept_of_mem (paired : Paired D σ) (member : c ∈ σ.columns D inp) :
    Kept D A τ (sent ++ [frame]) c := by
  refine ⟨muted.follows paired member, ?_⟩
  rw [muted.instereo]
  intro linked
  exact muted.flags_eq paired (muted.mem_columns paired member).1 linked (absurd member)

/-- A mute keeps every column. -/
theorem Muted.kept (paired : Paired D σ) (playback : D.inputslen ≤ c) (kept : Kept D A σ sent c) :
    Kept D A τ (sent ++ [frame]) c := by
  by_cases member : c ∈ σ.columns D inp
  · exact muted.kept_of_mem paired member
  · refine ⟨?_, ?_⟩
    · intro out below
      rw [lastSent_of_not_mem, kept.follows out below, State.due, State.due, muted.flags, if_neg member, muted.mix]
      rintro word inside rfl -
      exact member (muted.mem_frame.mp inside).2.1
    · rw [muted.instereo]
      intro linked
      exact muted.flags_eq paired playback linked fun _ => kept.flags linked

end Muted

theorem Kept.of_flatten {others : List Packet} (kept : Kept D A σ sent c) (same : others.flatten = sent.flatten) :
    Kept D A σ others c := by
  refine ⟨?_, kept.flags⟩
  intro out below
  rw [lastSent, same]
  exact kept.follows out below

end Columns

/-- A command about playback channels. -/
def Command.Playback (D : Device) : Command F → Prop
  | .mix (.ok edit) => D.inputslen ≤ edit.inp
  | .mix (.error _) => True
  | .level edit _ => D.inputslen ≤ edit.inp
  | .mute _ _ => True

/-- What a command about playback channels does. -/
inductive Played (D : Device) (A : Arithmetic F) (σ : State F) : Command F → State F → List Packet → Prop
  | refused (command : Command F) : Played D A σ command σ []
  | edited (command : Command F) (out inp : ℕ) (instereo : Bool) (τ : State F) (gained : Packet)
      (playback : D.inputslen ≤ inp) (committed : Committed D A σ τ (σ.address out inp instereo) [] gained) :
      Played D A σ command τ (if gained = [] then [] else [gained])
  | muted (inp : ℕ) (mute : Bool) (τ : State F) (frame : Packet) (muted : Muted D A σ τ inp mute frame) :
      Played D A σ (.mute inp mute) τ [frame]

theorem handle_cases (σ : State F) {command : Command F} (playback : command.Playback D) :
    ∃ handled, handle D A σ command = some handled ∧ Played D A σ command handled.state handled.frames := by
  cases command with
  | mix parsed =>
      obtain ⟨handled, done, cases⟩ := @setmix_cases F D A σ parsed
      refine ⟨handled, done, ?_⟩
      cases cases with
      | refused err => exact .refused _
      | sent edit gained metadata committed control none fits =>
          obtain rfl := none playback
          rw [List.append_nil]
          exact .edited _ edit.out edit.inp true _ gained playback committed
  | level edit instereo =>
      rcases @setlevel_cases F D A σ edit.out edit.inp instereo edit.level with
        ⟨err, done⟩ | ⟨τ, gained, committed, done⟩
      · exact ⟨_, done, .refused _⟩
      · exact ⟨_, done, .edited _ edit.out edit.inp instereo τ gained playback committed⟩
  | mute inp mute =>
      rcases @muteplayback_cases F D A σ inp mute with refused | ⟨τ, frame, sent, muted⟩
      · refine ⟨⟨some "invalid playback cached matrix or mapping", σ, []⟩, ?_, .refused _⟩
        simp [handle, refused]
      · refine ⟨⟨none, τ, [frame]⟩, ?_, .muted inp mute τ frame muted⟩
        simp [handle, sent]

/-- What a run keeps: the linking of the pairs, and the words sent of playback channels only. -/
structure Running (D : Device) (w : World F) : Prop where
  paired : Paired D w.state
  told : Told D w.sent.flatten

theorem Paired.of_instereo {σ τ : State F} (paired : Paired D σ) (same : τ.instereo = σ.instereo) :
    Paired D τ := by
  refine ⟨paired.even, ?_⟩
  rw [same]
  exact paired.agree

theorem Running.sent {w : World F} {τ : State F} {packet : Packet} (running : Running D w)
    (same : τ.instereo = w.state.instereo) (told : Told D packet) : Running D ⟨τ, w.sent ++ [packet]⟩ := by
  refine ⟨running.paired.of_instereo same, ?_⟩
  intro word member
  rw [List.flatten_append, List.flatten_singleton] at member
  rcases List.mem_append.mp member with member | member
  · exact running.told word member
  · exact told word member

theorem flatten_unless_empty (sent : List Packet) (packet : Packet) :
    (sent ++ if packet = [] then [] else [packet]).flatten = (sent ++ [packet]).flatten := by
  split
  · rename_i empty
    simp [empty]
  · rfl

/-- One command about playback channels. -/
theorem step_kept {w : World F} {command : Command F} (running : Running D w) (playback : command.Playback D) :
    ∃ v, w.step D A command = some v ∧ Running D v ∧
      ∀ c, D.inputslen ≤ c → Kept D A w.state w.sent c → Kept D A v.state v.sent c := by
  obtain ⟨handled, done, played⟩ := @handle_cases F D A w.state command playback
  refine ⟨⟨handled.state, w.sent ++ handled.frames⟩, by simp [World.step, done], ?_⟩
  generalize handled.state = τ, handled.frames = frames at played
  cases played with
  | refused =>
      rw [List.append_nil]
      exact ⟨running, fun c _ kept => kept⟩
  | edited _ out inp instereo _ gained low committed =>
      have told := committed.told (running.paired.address_inp low out instereo).1
      have next := running.sent committed.instereo told
      have same := flatten_unless_empty w.sent gained
      refine ⟨⟨next.paired, ?_⟩, ?_⟩
      · rw [same]
        exact next.told
      · intro c _ kept
        exact (committed.kept running.paired low kept).of_flatten same
  | muted inp mute _ frame muted =>
      exact ⟨running.sent muted.instereo (muted.told running.paired),
        fun c column kept => muted.kept running.paired column kept⟩

/-- Commands about playback channels, one after the other. -/
theorem run_kept {commands : List (Command F)} {w : World F} (running : Running D w)
    (playback : ∀ command ∈ commands, command.Playback D) :
    ∃ v, w.run D A commands = some v ∧ Running D v ∧
      ∀ c, D.inputslen ≤ c → Kept D A w.state w.sent c → Kept D A v.state v.sent c := by
  induction commands generalizing w with
  | nil => exact ⟨w, rfl, running, fun c _ kept => kept⟩
  | cons command commands ih =>
      obtain ⟨next, stepped, running, first⟩ :=
        @step_kept F D A w command running (playback command List.mem_cons_self)
      obtain ⟨v, ran, running, rest⟩ := ih running fun command member =>
        playback command (List.mem_cons_of_mem _ member)
      refine ⟨v, ?_, running, fun c column kept => rest c column (first c column kept)⟩
      rw [World.run, List.foldlM_cons, stepped]
      exact ran

/-- After an accepted mute its columns are kept. -/
theorem kept_after_mute {w v : World F} {inp : ℕ} {mute : Bool} {c : ℕ} (running : Running D w)
    (accepted : (muteplayback D A w.state inp mute).1 = 0) (stepped : w.step D A (.mute inp mute) = some v)
    (member : c ∈ w.state.columns D inp) : D.inputslen ≤ c ∧ Kept D A v.state v.sent c := by
  rcases @muteplayback_cases F D A w.state inp mute with refused | ⟨τ, frame, sent, muted⟩
  · rw [refused] at accepted
    cases accepted
  · simp only [World.step, handle, sent] at stepped
    cases stepped
    exact ⟨(muted.mem_columns running.paired member).1, muted.kept_of_mem running.paired member⟩

/-- **The playback columns follow their flags.** Over every run of mix edits and mutes of playback channels a
refused mute sends nothing and changes nothing; an accepted one sends one frame, of one word for every output and
channel that it addresses; and from an accepted mute on, what the device was last sent for its columns is zero
where the column is muted, and the cached coefficient elsewhere. -/
theorem columnsFollow (D : Device) (A : Arithmetic F) (σ : State F) (paired : Paired D σ)
    (commands : List (Command F)) (playback : ∀ command ∈ commands, command.Playback D) :
    ∃ w, (World.mk σ []).run D A commands = some w ∧
      (∀ inp mute, muteplayback D A w.state inp mute = (-1, w.state, []) ∨
        ∃ τ frame, muteplayback D A w.state inp mute = (0, τ, [frame]) ∧
          (frame.map fun word => (word.out, word.inp)) = List.range D.outputslen ×ˢ w.state.columns D inp ∧
          (frame.map Word.reg).Nodup ∧
          ∀ word ∈ frame, word.control = .mixLevel ∧ word.reg = D.ctltoreg .mixLevel word.inp word.out) ∧
      ∀ before inp mute after, commands = before ++ .mute inp mute :: after →
        ∀ v, (World.mk σ []).run D A before = some v → (muteplayback D A v.state inp mute).1 = 0 →
          ∀ c ∈ v.state.columns D inp, ∀ out < D.outputslen,
            lastSent w.sent c out = some (if w.state.mute c then 0 else mixlevelvalue A (w.state.mix out c)) ∧
            ((∀ inp' out', D.inputslen ≤ inp' →
                D.ctltoreg .mixLevel inp' out' = D.ctltoreg .mixLevel c out → inp' = c ∧ out' = out) →
              lastAt w.sent (D.ctltoreg .mixLevel c out) =
                some (if w.state.mute c then 0 else mixlevelvalue A (w.state.mix out c))) := by
  have initial : Running D (World.mk σ []) := ⟨paired, by simp [Told]⟩
  obtain ⟨w, ran, running, -⟩ := @run_kept F D A commands _ initial playback
  refine ⟨w, ran, ?_, ?_⟩
  · intro inp mute
    rcases @muteplayback_cases F D A w.state inp mute with refused | ⟨τ, frame, sent, muted⟩
    · exact .inl refused
    · refine .inr ⟨τ, frame, sent, ?_, muted.distinct, fun word member => ?_⟩
      · rw [muted.words, List.map_map]
        exact List.map_id _
      · obtain ⟨control, reg, -⟩ := muted.told running.paired word member
        exact ⟨control, reg⟩
  · rintro before inp mute after rfl v reached accepted c member out below
    have early : Running D v := by
      obtain ⟨u, same, running, -⟩ := @run_kept F D A before _ initial
        fun command inside => playback command (List.mem_append_left _ inside)
      rw [same] at reached
      cases reached
      exact running
    obtain ⟨u, stepped, later, -⟩ := @step_kept F D A v (.mute inp mute) early trivial
    obtain ⟨column, kept⟩ := kept_after_mute early accepted stepped member
    obtain ⟨w', same, -, keeps⟩ := @run_kept F D A after u later fun command inside =>
      playback command (List.mem_append_right _ (List.mem_cons_of_mem _ inside))
    have whole : (World.mk σ []).run D A (before ++ .mute inp mute :: after) = some w' := by
      rw [World.run, List.foldlM_append, ← World.run, reached]
      simp only [Option.bind_eq_bind, Option.bind_some, List.foldlM_cons, stepped]
      exact same
    rw [ran] at whole
    cases whole
    have follows := (keeps c column kept).follows out below
    refine ⟨follows, fun alone => ?_⟩
    rw [lastAt_of_alone running.told alone]
    exact follows

/-! ### Channels that are not in pairs -/

/-- Coefficients as multiples of `1 / 0x8000`, for levels in the middle at full width. -/
def fixedPoint : Arithmetic ℤ where
  zero := 0
  isfinite _ := true
  negative level := level < 0
  aboveTwo level := 0x10000 < level
  scaled level := level
  tenths _ := 0
  wide l := ⟨l.vol, 0, 0, l.vol⟩
  panned l := (l.vol, l.vol)
  folded l := (l.vol / 2, l.vol / 2)
  calclevel _ _ _ _ := ⟨0, 0, 100⟩
  scaled_zero := rfl
  scaled_range level _ low high := by
    simp only [decide_eq_false_iff_not, not_lt] at low high
    exact ⟨low, high⟩

/-- A device of so many inputs and as many outputs. -/
def square (count : ℕ) : Device where
  inputslen := count
  outputslen := count
  ctltoreg
    | .mixLevel, inp, out => 0x4000 + 64 * out + inp
    | .mix, inp, out => 0x2000 + 64 * out + inp

/-- Silence, with the given channels linked and no output. -/
def silence (linked : List ℕ) : State ℤ where
  mix _ _ := 0
  mixed _ := true
  outstereo _ := false
  instereo inp := decide (inp ∈ linked)
  mute _ := false

/-- A mute of a channel, then an edit of another one at half of full scale. -/
def muteThenEdit (muted edited : ℕ) : List (Command ℤ) :=
  [.mute muted true, .mix (.ok ⟨0, edited, ⟨0x2000, 0, 100⟩⟩)]

theorem columnsFollow_twoPairs :
    ∃ w, (World.mk (silence [2, 3]) []).run (square 2) fixedPoint (muteThenEdit 3 2) = some w ∧
      lastSent w.sent 3 0 = some (if w.state.mute 3 then 0 else mixlevelvalue fixedPoint (w.state.mix 0 3)) := by
  have paired : Paired (square 2) (silence [2, 3]) := by
    refine ⟨rfl, ?_⟩
    intro c _ even
    simp only [silence, List.mem_cons, List.not_mem_nil, or_false, decide_eq_decide]
    omega
  have playback : ∀ command ∈ muteThenEdit 3 2, command.Playback (square 2) := by
    simp [muteThenEdit, Command.Playback, square]
  obtain ⟨w, ran, -, follows⟩ :=
    columnsFollow (square 2) fixedPoint (silence [2, 3]) paired (muteThenEdit 3 2) playback
  exact ⟨w, ran, (follows [] 3 true _ rfl _ rfl rfl 3 (by decide) 0 (by decide)).1⟩

/-- Where the two channels of a pair disagree on being linked, or where an odd number of inputs puts the pairs of
edits and of mutes apart, an edit sends a coefficient of a muted channel. -/
theorem muted_yet_sent :
    (∃ v w, (World.mk (silence [2]) []).run (square 2) fixedPoint [.mute 3 true] = some v ∧
      (muteplayback (square 2) fixedPoint (silence [2]) 3 true).1 = 0 ∧
      (World.mk (silence [2]) []).run (square 2) fixedPoint (muteThenEdit 3 2) = some w ∧
      w.state.mute 3 = true ∧ lastSent w.sent 3 0 = some 0x1000) ∧
    ∃ w, (muteplayback (square 3) fixedPoint (silence [3, 4]) 3 true).1 = 0 ∧
      (World.mk (silence [3, 4]) []).run (square 3) fixedPoint (muteThenEdit 3 3) = some w ∧
      w.state.mute 3 = true ∧ lastSent w.sent 3 0 = some 0x1000 :=
  ⟨⟨_, _, rfl, rfl, rfl, rfl, rfl⟩, _, rfl, rfl, rfl, rfl⟩

end OscmixDesk.Matrix
