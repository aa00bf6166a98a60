/-
**A mix edit is planned whole.**

`planlevel` adds a word for every crosspoint of the channels and outputs that it addresses, or none of a muted
channel, and only then stores the coefficients; whatever it refuses leaves the cache and the packet alone.

* `planlevel_cases` — what planning does;
* `editsPlanned` — an edit is refused and changes nothing, or goes out in one frame within the capacity.
-/

import OscmixDesk.Model.Matrix

namespace OscmixDesk.Matrix

variable {F : Type} {D : Device} {A : Arithmetic F}

/-! ### Packets -/

/-- The word of a coefficient. -/
def coefficientWord (D : Device) (A : Arithmetic F) (inp out : ℕ) (level : F) : Word :=
  ⟨.mixLevel, inp, out, D.ctltoreg .mixLevel inp out, mixlevelvalue A level⟩

theorem mixwrite_of_fits {writes : Packet} {word : Word} (low : 0 ≤ word.reg) (high : word.reg ≤ 0x7fff)
    (fits : writes.length < mixWriteMaxWords) : mixwrite writes word = some (writes ++ [word]) := by
  rw [mixwrite, if_neg]
  omega

theorem mixwrite_eq_some {writes pending : Packet} {word : Word} (written : mixwrite writes word = some pending) :
    pending = writes ++ [word] ∧ 0 ≤ word.reg ∧ word.reg ≤ 0x7fff := by
  unfold mixwrite at written
  split at written
  · cases written
  · rename_i fits
    cases written
    exact ⟨rfl, by omega, by omega⟩

/-- A planned coefficient is a word more, at an address that the packet has no word for. -/
theorem planmixlevel_eq_some {writes pending : Packet} {inp out : ℕ} {level : F}
    (planned : planmixlevel D A writes inp out level = some pending) :
    pending = writes ++ [coefficientWord D A inp out level] ∧ 0 ≤ D.ctltoreg .mixLevel inp out ∧
      D.ctltoreg .mixLevel inp out ≤ 0x7fff ∧ ∀ word ∈ writes, word.reg ≠ D.ctltoreg .mixLevel inp out := by
  unfold planmixlevel at planned
  split at planned
  · cases planned
  · dsimp only at planned
    split at planned
    · cases planned
    · rename_i fresh
      obtain ⟨rfl, low, high⟩ := mixwrite_eq_some planned
      refine ⟨rfl, low, high, ?_⟩
      intro word member same
      apply fresh
      rw [List.any_eq_true]
      exact ⟨word, member, beq_iff_eq.mpr same⟩

/-! ### What an edit addresses -/

/-- The first channel and output of an edit, and whether it takes their partners with them. -/
structure Address where
  out : ℕ
  inp : ℕ
  instereo : Bool
  outstereo : Bool

/-- What an edit addresses under the stereo flags. -/
def State.address (σ : State F) (out inp : ℕ) (instereo : Bool) : Address :=
  let instereo := instereo && σ.instereo inp
  let out := if σ.outstereo out && out % 2 == 1 then out - 1 else out
  ⟨out, if instereo && inp % 2 == 1 then inp - 1 else inp, instereo, σ.outstereo out⟩

/-- The crosspoints, each a channel and an output. -/
def Address.crosspoints (a : Address) : List (ℕ × ℕ) :=
  (if a.instereo then [(a.inp + 1, a.out)] else []) ++
    (if a.instereo && a.outstereo then [(a.inp + 1, a.out + 1)] else []) ++ [(a.inp, a.out)] ++
    if a.outstereo then [(a.inp, a.out + 1)] else []

/-- What the coefficients give a crosspoint of the address. -/
def Address.at (a : Address) (c : Coefficients F) (inp out : ℕ) : F :=
  if inp = a.inp then (if out = a.out then c.ll else c.lr) else if out = a.out then c.rl else c.rr

theorem Address.crosspoints_nodup (a : Address) : a.crosspoints.Nodup := by
  unfold Address.crosspoints
  cases a.instereo <;> cases a.outstereo <;> simp

theorem Address.length_crosspoints (a : Address) : a.crosspoints.length ≤ 4 := by
  unfold Address.crosspoints
  cases a.instereo <;> cases a.outstereo <;> simp

/-- The words are planned crosspoint by crosspoint. -/
theorem planwords_eq (a : Address) (c : Coefficients F) (writes : Packet) :
    planwords D A writes a.out a.inp a.instereo a.outstereo c =
      a.crosspoints.foldlM (fun pending p => planmixlevel D A pending p.1 p.2 (a.at c p.1 p.2)) writes := by
  obtain ⟨out, inp, instereo, outstereo⟩ := a
  unfold planwords Address.crosspoints
  cases instereo <;> cases outstereo <;> simp [Address.at]

/-- The state after an edit: the crosspoints addressed have the coefficients of the level, and nothing else has
changed. -/
def State.edited (A : Arithmetic F) (σ : State F) (a : Address) (l : Level F) : State F :=
  { σ with
    mix := fun out inp =>
      if (inp, out) ∈ a.crosspoints then a.at (coefficients A a.instereo a.outstereo l) inp out
      else σ.mix out inp }

/-- The cache is stored crosspoint by crosspoint, and nowhere else. -/
theorem commit_eq (σ : State F) (a : Address) (l : Level F) :
    σ.commit a.out a.inp a.instereo a.outstereo (coefficients A a.instereo a.outstereo l) = σ.edited A a l := by
  have mix (c : Coefficients F) (out inp : ℕ) : (σ.commit a.out a.inp a.instereo a.outstereo c).mix out inp
      = if (inp, out) ∈ a.crosspoints then a.at c inp out else σ.mix out inp := by
    obtain ⟨o, i, instereo, outstereo⟩ := a
    unfold State.commit Address.crosspoints
    cases instereo <;> cases outstereo <;> simp only [State.store, Address.at] <;> grind
  have flags (c : Coefficients F) : σ.commit a.out a.inp a.instereo a.outstereo c
      = { σ with mix := (σ.commit a.out a.inp a.instereo a.outstereo c).mix } := by
    unfold State.commit
    cases a.instereo <;> cases a.outstereo <;> rfl
  rw [flags]
  unfold State.edited
  congr 1
  funext out inp
  exact mix _ out inp

/-! ### Planning -/

/-- What a packet gained: a word for each of the crosspoints, at addresses that no two of them share and that no
word before them has. -/
structure Gains (D : Device) (A : Arithmetic F) (value : ℕ → ℕ → F) (writes gained : Packet)
    (crosspoints : List (ℕ × ℕ)) : Prop where
  words : gained = crosspoints.map fun p => coefficientWord D A p.1 p.2 (value p.1 p.2)
  mapped : ∀ word ∈ gained, 0 ≤ word.reg ∧ word.reg ≤ 0x7fff
  distinct : (gained.map Word.reg).Nodup
  apart : ∀ word ∈ writes, ∀ added ∈ gained, word.reg ≠ added.reg

/-- Planning the crosspoints one after the other. -/
theorem gains_of_plan {value : ℕ → ℕ → F} {crosspoints : List (ℕ × ℕ)} {writes pending : Packet}
    (planned : crosspoints.foldlM
      (fun pending p => planmixlevel D A pending p.1 p.2 (value p.1 p.2)) writes = some pending) :
    ∃ gained, pending = writes ++ gained ∧ Gains D A value writes gained crosspoints := by
  induction crosspoints generalizing writes with
  | nil =>
      cases planned
      exact ⟨[], by simp, ⟨rfl, by simp, by simp, by simp⟩⟩
  | cons p crosspoints ih =>
      rw [List.foldlM_cons, Option.bind_eq_bind, Option.bind_eq_some_iff] at planned
      obtain ⟨next, first, rest⟩ := planned
      obtain ⟨rfl, low, high, fresh⟩ := planmixlevel_eq_some first
      obtain ⟨gained, rfl, gains⟩ := ih rest
      have own : ∀ added ∈ gained, (coefficientWord D A p.1 p.2 (value p.1 p.2)).reg ≠ added.reg :=
        fun added member => gains.apart _ (by simp) added member
      refine ⟨coefficientWord D A p.1 p.2 (value p.1 p.2) :: gained, by simp, ?_, ?_, ?_, ?_⟩
      · rw [gains.words, List.map_cons]
      · intro word member
        rcases List.mem_cons.mp member with rfl | member
        · exact ⟨low, high⟩
        · exact gains.mapped word member
      · rw [List.map_cons, List.nodup_cons]
        refine ⟨?_, gains.distinct⟩
        intro member
        obtain ⟨added, member, same⟩ := List.mem_map.mp member
        exact own added member same.symm
      · intro word member added inside
        rcases List.mem_cons.mp inside with rfl | inside
        · exact fresh word member
        · exact gains.apart word (List.mem_append_left _ member) added inside

/-- A committed edit: the packet gained the words of the new coefficients, none of a muted channel, and the cache
changed at the addressed crosspoints only. -/
structure Committed (D : Device) (A : Arithmetic F) (σ τ : State F) (a : Address) (writes gained : Packet) :
    Prop where
  gains : Gains D A (fun inp out => τ.mix out inp) writes gained (if σ.mute a.inp then [] else a.crosspoints)
  elsewhere : ∀ out inp, (inp, out) ∉ a.crosspoints → τ.mix out inp = σ.mix out inp
  mute : τ.mute = σ.mute
  instereo : τ.instereo = σ.instereo
  outstereo : τ.outstereo = σ.outstereo

theorem Gains.nil (value : ℕ → ℕ → F) (writes : Packet) : Gains D A value writes [] [] :=
  ⟨rfl, by simp, by simp, by simp⟩

theorem Gains.congr {value other : ℕ → ℕ → F} {writes gained : Packet} {crosspoints : List (ℕ × ℕ)}
    (gains : Gains D A value writes gained crosspoints)
    (same : ∀ p ∈ crosspoints, value p.1 p.2 = other p.1 p.2) : Gains D A other writes gained crosspoints := by
  refine ⟨?_, gains.mapped, gains.distinct, gains.apart⟩
  rw [gains.words]
  exact List.map_congr_left fun p member => by rw [same p member]

/-- The words that the coefficients of an edit gain, against the cache after it. -/
theorem committed_of_plan {σ : State F} {a : Address} {l : Level F} {writes pending : Packet}
    (planned : (if σ.mute a.inp then some writes
      else planwords D A writes a.out a.inp a.instereo a.outstereo (coefficients A a.instereo a.outstereo l))
        = some pending) :
    ∃ gained, pending = writes ++ gained ∧ Committed D A σ (σ.edited A a l) a writes gained := by
  have elsewhere : ∀ out inp, (inp, out) ∉ a.crosspoints → (σ.edited A a l).mix out inp = σ.mix out inp :=
    fun out inp outside => if_neg outside
  split at planned
  · rename_i muted
    cases planned
    refine ⟨[], by simp, ?_, elsewhere, rfl, rfl, rfl⟩
    rw [if_pos muted]
    exact Gains.nil _ _
  · rename_i sounding
    rw [planwords_eq] at planned
    obtain ⟨gained, rfl, gains⟩ := gains_of_plan planned
    refine ⟨gained, rfl, ?_, elsewhere, rfl, rfl, rfl⟩
    rw [if_neg sounding]
    exact gains.congr fun p member => (if_pos member).symm

/-- What `planlevel` refuses before it plans a word. -/
def Address.refuses (A : Arithmetic F) (a : Address) (l : Level F) : Bool :=
  !A.isfinite l.vol || A.negative l.vol || l.pan < -100 || 100 < l.pan ||
    (a.instereo && a.outstereo && (l.width < -100 || 100 < l.width))

def Coefficients.refused (A : Arithmetic F) (c : Coefficients F) : Bool :=
  !A.admits c.ll || !A.admits c.lr || !A.admits c.rl || !A.admits c.rr

/-- `planlevel` at what the edit addresses. -/
theorem planlevel_eq (σ : State F) (out inp : ℕ) (instereo : Bool) (l : Level F) (writes : Packet) :
    planlevel D A σ out inp instereo l writes =
      let a := σ.address out inp instereo
      let c := coefficients A a.instereo a.outstereo l
      if mixWriteMaxWords < writes.length then (-1, σ, writes)
      else if a.refuses A l then (-1, σ, writes)
      else if c.refused A then (-1, σ, writes)
      else
        match if σ.mute a.inp then some writes
          else planwords D A writes a.out a.inp a.instereo a.outstereo c with
        | none => (-1, σ, writes)
        | some pending => (0, σ.commit a.out a.inp a.instereo a.outstereo c, pending) := rfl

/-- Planning an edit is refused, and leaves the cache and the packet as they were, or commits. -/
theorem planlevel_cases (σ : State F) (out inp : ℕ) (instereo : Bool) (l : Level F) (writes : Packet) :
    planlevel D A σ out inp instereo l writes = (-1, σ, writes) ∨
      ∃ gained, planlevel D A σ out inp instereo l writes =
          (0, σ.edited A (σ.address out inp instereo) l, writes ++ gained) ∧
        Committed D A σ (σ.edited A (σ.address out inp instereo) l) (σ.address out inp instereo) writes gained := by
  rw [planlevel_eq]
  generalize σ.address out inp instereo = a
  dsimp only
  split
  · exact .inl rfl
  · split
    · exact .inl rfl
    · split
      · exact .inl rfl
      · split
        · exact .inl rfl
        · rename_i pending planned
          obtain ⟨gained, rfl, committed⟩ := committed_of_plan planned
          rw [commit_eq]
          exact .inr ⟨gained, rfl, committed⟩

/-! ### Handling an edit -/

theorem Committed.length_gained {σ τ : State F} {a : Address} {writes gained : Packet}
    (committed : Committed D A σ τ a writes gained) : gained.length ≤ 4 := by
  have bound := a.length_crosspoints
  rw [committed.gains.words, List.length_map]
  split
  · exact Nat.zero_le 4
  · exact bound

/-- The packet of a handled edit is within the capacity, and goes out unless it is empty. -/
theorem writemix_of_fits {writes : Packet} (fits : writes.length ≤ mixWriteMaxWords) :
    writemix writes = some (if writes = [] then [] else [writes]) := by
  rw [writemix, if_neg (by omega)]
  cases writes <;> rfl

/-- The metadata words find room, two for each address. -/
theorem appendMetadata_of_fits {σ : State F} {out inp j : ℕ} {metadata : List ℤ} {writes : Packet}
    (mapped : ∀ reg ∈ metadata, 0 ≤ reg ∧ reg ≤ 0x7fff)
    (fits : writes.length + 2 * metadata.length ≤ mixWriteMaxWords) :
    ∃ added, appendMetadata A σ out inp j metadata writes = some (writes ++ added) ∧
      added.length = 2 * metadata.length ∧ ∀ word ∈ added, word.control = .mix := by
  induction metadata generalizing j writes with
  | nil => exact ⟨[], by simp [appendMetadata], rfl, by simp⟩
  | cons reg metadata ih =>
      obtain ⟨low, high⟩ := mapped reg List.mem_cons_self
      rw [List.length_cons] at fits
      have room : ¬mixWriteMaxWords < writes.length + 2 := by omega
      let level := A.calclevel σ out (inp + j) false
      let db : Word := ⟨.mix, inp + j, out, reg, dbvalue A level.vol⟩
      let pan : Word := ⟨.mix, inp + j, out, reg, panvalue level.pan⟩
      have first : mixwrite writes db = some (writes ++ [db]) := mixwrite_of_fits low high (by omega)
      have second : mixwrite (writes ++ [db]) pan = some (writes ++ [db] ++ [pan]) := by
        apply mixwrite_of_fits low high
        rw [List.length_append, List.length_singleton]
        omega
      obtain ⟨added, appended, length, control⟩ := @ih (j + 1) (writes ++ [db] ++ [pan])
        (fun reg member => mapped reg (List.mem_cons_of_mem _ member))
        (by simp only [List.length_append, List.length_singleton]; omega)
      refine ⟨db :: pan :: added, ?_, ?_, ?_⟩
      · unfold appendMetadata
        simp only [if_neg room]
        rw [first, Option.getD_some, second, Option.getD_some, appended]
        simp
      · simp only [List.length_cons, length]
        omega
      · intro word member
        rcases List.mem_cons.mp member with rfl | member
        · rfl
        · rcases List.mem_cons.mp member with rfl | member
          · rfl
          · exact control word member

/-- An edit of a level is refused, or what it gained goes out. -/
theorem setlevel_cases (σ : State F) (out inp : ℕ) (instereo : Bool) (l : Level F) :
    (∃ err, setlevel D A σ out inp instereo l = some ⟨some err, σ, []⟩) ∨
      ∃ τ gained, Committed D A σ τ (σ.address out inp instereo) [] gained ∧
        setlevel D A σ out inp instereo l = some ⟨none, τ, if gained = [] then [] else [gained]⟩ := by
  unfold setlevel
  rcases planlevel_cases σ out inp instereo l [] with refused | ⟨gained, planned, committed⟩
  · rw [refused]
    exact .inl ⟨_, rfl⟩
  · have length := committed.length_gained
    rw [planned]
    refine .inr ⟨_, gained, committed, ?_⟩
    simp only [List.nil_append, writemix_of_fits (show gained.length ≤ mixWriteMaxWords by
      unfold mixWriteMaxWords; omega)]
    rfl

/-- What a mix edit is handled as. -/
inductive SetmixCases (D : Device) (A : Arithmetic F) (σ : State F) : Except String (Edit F) →
    Handled F → Prop
  | refused (parsed : Except String (Edit F)) (err : String) : SetmixCases D A σ parsed ⟨some err, σ, []⟩
  | sent (edit : Edit F) (gained metadata : Packet)
      (committed : Committed D A σ (σ.edited A (σ.address edit.out edit.inp true) edit.level)
        (σ.address edit.out edit.inp true) [] gained)
      (control : ∀ word ∈ metadata, word.control = .mix)
      (playback : D.inputslen ≤ edit.inp → metadata = [])
      (fits : (gained ++ metadata).length ≤ mixWriteMaxWords) :
      SetmixCases D A σ (.ok edit)
        ⟨none, σ.edited A (σ.address edit.out edit.inp true) edit.level,
          if gained ++ metadata = [] then [] else [gained ++ metadata]⟩

/-- A mix edit is refused, or its coefficients and metadata go out in one packet; no assertion fails. -/
theorem setmix_cases (σ : State F) (parsed : Except String (Edit F)) :
    ∃ handled, setmix D A σ parsed = some handled ∧ SetmixCases D A σ parsed handled := by
  cases parsed with
  | error err => exact ⟨_, rfl, .refused _ err⟩
  | ok edit =>
      obtain ⟨out, inp, level⟩ := edit
      unfold setmix
      dsimp only
      set count := if inp < D.inputslen then (if σ.instereo inp then 2 else 1) else 0 with counted
      have most : count ≤ 2 := by
        rw [counted]
        split
        · split <;> omega
        · omega
      split
      · exact ⟨_, rfl, .refused _ _⟩
      · rename_i mapped
        rcases planlevel_cases σ out inp true level [] with refused | ⟨gained, planned, committed⟩
        · rw [refused]
          exact ⟨_, rfl, .refused _ _⟩
        · have length := committed.length_gained
          rw [planned]
          obtain ⟨added, appended, added_length, control⟩ := @appendMetadata_of_fits F A
            (σ.edited A (σ.address out inp true) level) out inp 0
            ((List.range count).map fun j => D.ctltoreg .mix (inp + j) out) gained
            (by
              intro reg member
              rw [List.any_eq_true] at mapped
              by_contra outside
              refine mapped ⟨reg, member, ?_⟩
              simp only [Bool.or_eq_true, decide_eq_true_eq]
              omega)
            (by
              rw [List.length_map, List.length_range]
              unfold mixWriteMaxWords
              omega)
          rw [List.length_map, List.length_range] at added_length
          have fits : (gained ++ added).length ≤ mixWriteMaxWords := by
            rw [List.length_append]
            unfold mixWriteMaxWords
            omega
          refine ⟨⟨none, σ.edited A (σ.address out inp true) level,
            if gained ++ added = [] then [] else [gained ++ added]⟩, ?_, ?_⟩
          · simp only [List.nil_append, appended, Option.bind_eq_bind, Option.bind_some, writemix_of_fits fits]
            rfl
          · refine .sent ⟨out, inp, level⟩ gained added committed control ?_ fits
            intro playback
            have none : count = 0 := by
              rw [counted, if_neg (Nat.not_lt.mpr playback)]
            rw [← List.length_eq_zero_iff]
            omega

theorem Gains.subjects {value : ℕ → ℕ → F} {writes gained : Packet} {crosspoints : List (ℕ × ℕ)}
    (gains : Gains D A value writes gained crosspoints) :
    (gained.map fun word => (word.inp, word.out)) = crosspoints := by
  rw [gains.words, List.map_map]
  exact List.map_id _

theorem Gains.word {value : ℕ → ℕ → F} {writes gained : Packet} {crosspoints : List (ℕ × ℕ)}
    (gains : Gains D A value writes gained crosspoints) {word : Word} (member : word ∈ gained) :
    word = coefficientWord D A word.inp word.out (value word.inp word.out) := by
  rw [gains.words] at member
  obtain ⟨p, -, rfl⟩ := List.mem_map.mp member
  rfl

/-- **A mix edit is planned whole before anything changes.** Planning is refused with the cache and the packet as
they were, or commits: then the crosspoints addressed, and nothing else, have the coefficients of the level
asked for, be the channel muted or not, and the packet gained one word for each of them, none of a muted
channel, at addresses of their own and with the coefficients of the new cache. A refused `setmix` sends nothing
and keeps the cache; an accepted one leaves the cache so edited, and sends one packet at most, within the
capacity; no assertion fails. -/
theorem editsPlanned (D : Device) (A : Arithmetic F) (σ : State F) :
    (∀ (out inp : ℕ) (instereo : Bool) (l : Level F) (writes : Packet),
      planlevel D A σ out inp instereo l writes = (-1, σ, writes) ∨
        ∃ gained, planlevel D A σ out inp instereo l writes =
            (0, σ.edited A (σ.address out inp instereo) l, writes ++ gained) ∧
          (gained.map fun word => (word.inp, word.out)) =
            (if σ.mute (σ.address out inp instereo).inp then [] else (σ.address out inp instereo).crosspoints) ∧
          (σ.address out inp instereo).crosspoints.Nodup ∧
          (gained.map Word.reg).Nodup ∧
          (∀ word ∈ writes, ∀ added ∈ gained, word.reg ≠ added.reg) ∧
          ∀ word ∈ gained, word.control = .mixLevel ∧ word.reg = D.ctltoreg .mixLevel word.inp word.out ∧
            word.val = mixlevelvalue A
              ((σ.edited A (σ.address out inp instereo) l).mix word.out word.inp)) ∧
    ∀ parsed : Except String (Edit F), ∃ handled, setmix D A σ parsed = some handled ∧
      (handled.err ≠ none → handled.state = σ ∧ handled.frames = []) ∧
      (handled.err = none → ∃ edit, parsed = .ok edit ∧
        handled.state = σ.edited A (σ.address edit.out edit.inp true) edit.level) ∧
      handled.frames.length ≤ 1 ∧ ∀ frame ∈ handled.frames, frame.length ≤ 8 := by
  refine ⟨?_, ?_⟩
  · intro out inp instereo l writes
    rcases planlevel_cases σ out inp instereo l writes with refused | ⟨gained, planned, committed⟩
    · exact .inl refused
    · refine .inr ⟨gained, planned, committed.gains.subjects, Address.crosspoints_nodup _,
        committed.gains.distinct, committed.gains.apart, ?_⟩
      intro word member
      have same := committed.gains.word member
      exact ⟨congrArg Word.control same, congrArg Word.reg same, congrArg Word.val same⟩
  · intro parsed
    obtain ⟨handled, done, cases⟩ := @setmix_cases F D A σ parsed
    refine ⟨handled, done, ?_⟩
    cases cases with
    | refused err => exact ⟨fun _ => ⟨rfl, rfl⟩, nofun, Nat.zero_le 1, by simp⟩
    | sent edit gained metadata committed control playback fits =>
        refine ⟨fun failed => absurd rfl failed, fun _ => ⟨edit, rfl, rfl⟩, ?_, ?_⟩
        · dsimp only
          split <;> simp
        · intro frame member
          dsimp only at member
          split at member
          · cases member
          · obtain rfl := List.mem_singleton.mp member
            exact fits

end OscmixDesk.Matrix
