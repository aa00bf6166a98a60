/-
**What substantiates a report of the input mix.**

A bit of `mix_observed` stands for a report of the device that nothing has undone since: no command, no
change of a link, no refusal of the cache that covers the half, and for the floor no later level
(`Vouched`). A report of a whole crosspoint needs the links and the bits (`published_report`), so the inputs
up to it hold what the bits stand for.
-/

import OscmixDesk.Foundation.Traces
import OscmixDesk.Model.Readback
import OscmixDesk.Proof.Playbacks
import Mathlib.Data.UInt

namespace OscmixDesk.Matrix

open Traces

variable {F : Type} {D : Device} {A : Decoding F}

/-! ### What is heard and what undoes it -/

/-- A command or a REFRESH. -/
def Input.Command : Input F → Prop
  | .command _ => True
  | _ => False

/-- A report of the link of an input's pair. -/
def Input.LinksInput (inp : ℕ) : Input F → Prop
  | .inputStereo i _ => i / 2 = inp / 2
  | _ => False

/-- A report of the link of an output's pair. -/
def Input.LinksOutput (out : ℕ) : Input F → Prop
  | .outputStereo o _ => o / 2 = out / 2
  | _ => False

/-- A report of the level half of a crosspoint. -/
def Input.Levels (out inp : ℕ) : Input F → Prop
  | .mix o i val => o = out ∧ i = inp ∧ ispan val = false
  | _ => False

/-- A report of its pan half. -/
def Input.Pans (out inp : ℕ) : Input F → Prop
  | .mix o i val => o = out ∧ i = inp ∧ ispan val = true
  | _ => False

/-- A report of a level at or below the floor. -/
def Input.Floors (out inp : ℕ) : Input F → Prop
  | .mix o i val => o = out ∧ i = inp ∧ ispan val = false ∧ mixvalue val ≤ -650
  | _ => False

/-- The cache of a crosspoint is refused when a half of it is reported. -/
structure Refused (D : Device) (A : Decoding F) (σ : Readback F) (out inp : ℕ) : Prop where
  row : out < D.outputslen
  column : inp < D.inputslen
  first : (out % 2 == 1 && σ.outstereo out) = false
  refused : σ.admitted D A out inp = false

/-- What undoes a half that was heard: a command, a link that changes, a refusal that covers it. -/
def LosesHalf (D : Device) (A : Decoding F) (out inp : ℕ) (σ : Readback F) : Input F → Prop
  | .command _ => True
  | .inputStereo i val => σ.instereo (i - i % 2) ≠ (val != 0)
  | .outputStereo o val => σ.outstereo (o - o % 2) ≠ (val != 0)
  | .mix o i _ => Refused D A σ o i ∧ σ.covers D o i out inp = true

/-- A floor is undone by another level, too. -/
def LosesFloor (D : Device) (A : Decoding F) (out inp : ℕ) (σ : Readback F) (input : Input F) : Prop :=
  LosesHalf D A out inp σ input ∨ input.Levels out inp

/-- What the bits of a crosspoint stand for, after some inputs. -/
structure VouchedHalf (D : Device) (A : Decoding F) (start : Readback F) (inputs : List (Input F))
    (out inp : ℕ) (bits : UInt8) : Prop where
  level : bits &&& 1 ≠ 0 → Since (advance D A) start (Input.Levels out inp) (LosesHalf D A out inp) inputs
  pan : bits &&& 2 ≠ 0 → Since (advance D A) start (Input.Pans out inp) (LosesHalf D A out inp) inputs
  floor : out % 2 = 0 → bits &&& 4 ≠ 0 →
    Since (advance D A) start (Input.Floors out inp) (LosesFloor D A out inp) inputs

/-- What was heard stands for a report of the device that nothing has undone since. -/
structure Vouched (D : Device) (A : Decoding F) (start : Readback F) (inputs : List (Input F))
    (σ : Readback F) : Prop where
  inputLinks : ∀ i < D.inputslen, σ.instereoObserved i = true →
    Since (advance D A) start (Input.LinksInput i) (fun _ => Input.Command) inputs
  outputLinks : ∀ o < D.outputslen, σ.outstereoObserved o = true →
    Since (advance D A) start (Input.LinksOutput o) (fun _ => Input.Command) inputs
  half : ∀ o < D.outputslen, ∀ i < D.inputslen, VouchedHalf D A start inputs o i (σ.mixObserved o i)

/-! ### Bits -/

theorem forall_byte {holds : UInt8 → Prop} (each : ∀ n : Fin 256, holds (UInt8.ofFin n)) (bits : UInt8) :
    holds bits := by
  have same : UInt8.ofFin bits.toFin = bits := by simp
  exact same ▸ each bits.toFin

/-- A pan leaves the level and the floor as they are. -/
theorem pan_bits (bits : UInt8) : (bits ||| 2) &&& 1 = bits &&& 1 ∧ (bits ||| 2) &&& 4 = bits &&& 4 :=
  @forall_byte (fun bits => (bits ||| 2) &&& 1 = bits &&& 1 ∧ (bits ||| 2) &&& 4 = bits &&& 4)
    (by decide +kernel) bits

/-- A level leaves the pan as it is, and above the floor it takes the floor away. -/
theorem level_bits (bits : UInt8) :
    (∀ floor : Bool, (bits &&& ~~~4 ||| (if floor then 5 else 1)) &&& 2 = bits &&& 2)
      ∧ (bits &&& ~~~4 ||| 1) &&& 4 = 0 :=
  @forall_byte (fun bits =>
    (∀ floor : Bool, (bits &&& ~~~4 ||| (if floor then 5 else 1)) &&& 2 = bits &&& 2)
      ∧ (bits &&& ~~~4 ||| 1) &&& 4 = 0) (by decide +kernel) bits

theorem complete_bits (bits : UInt8) :
    (bits &&& 3 = 3 → bits &&& 1 ≠ 0 ∧ bits &&& 2 ≠ 0) ∧ (bits &&& 5 = 5 → bits &&& 4 ≠ 0) :=
  @forall_byte (fun bits =>
    (bits &&& 3 = 3 → bits &&& 1 ≠ 0 ∧ bits &&& 2 ≠ 0) ∧ (bits &&& 5 = 5 → bits &&& 4 ≠ 0))
    (by decide +kernel) bits

/-! ### The steps -/

/-- The same cache and the same bits: only a width differs. -/
structure SameHeard (σ τ : Readback F) : Prop where
  state : τ.toState = σ.toState
  bits : τ.mixObserved = σ.mixObserved
  inputs : τ.instereoObserved = σ.instereoObserved
  outputs : τ.outstereoObserved = σ.outstereoObserved

/-- The left channel of a linked pair, else the channel itself. -/
def Readback.column (σ : Readback F) (inp : ℕ) : ℕ :=
  if σ.instereo inp = true then inp - inp % 2 else inp

/-- What a report of a crosspoint needs: links that were heard, and every half, or both floors of a silent
pair of linked pairs. -/
structure Substantiated (D : Device) (A : Decoding F) (σ : Readback F) (out inp : ℕ) : Prop where
  output : σ.outstereoObserved out = true
  input : σ.instereoObserved inp = true
  halves : (σ.mixObserved out inp &&& 3 = 3
      ∧ (σ.instereo inp = true → σ.mixObserved out (inp + 1) &&& 3 = 3))
    ∨ σ.freshstereosilence D A out inp = true

theorem freshstereosilence_congr {σ τ : Readback F} (same : SameHeard σ τ) (out inp : ℕ) :
    τ.freshstereosilence D A out inp = σ.freshstereosilence D A out inp := by
  unfold Readback.freshstereosilence
  rw [same.state, same.bits, same.inputs, same.outputs]

theorem reported_spec (σ : Readback F) (out inp : ℕ) (level : Level F) :
    (reported D A σ out inp level).1 = σ
      ∧ ∀ report ∈ (reported D A σ out inp level).2,
        report = .mix out inp level ∧ Substantiated D A σ out inp := by
  unfold reported
  dsimp only
  split_ifs with missing
  · exact ⟨rfl, fun report member => absurd member List.not_mem_nil⟩
  · refine ⟨rfl, fun report member => ⟨List.mem_singleton.mp member, ?_⟩⟩
    simp only [Bool.or_eq_true, Bool.and_eq_true, Bool.not_eq_true', not_or, not_and,
      Bool.not_eq_false] at missing
    obtain ⟨⟨output, input⟩, halves⟩ := missing
    refine ⟨output, input, ?_⟩
    by_cases silent : σ.freshstereosilence D A out inp = true
    · exact Or.inr silent
    · have whole := of_not_not fun partly => silent (halves (Bool.not_eq_true _ ▸ partly))
      simp only [Bool.and_eq_true, Bool.or_eq_true, Bool.not_eq_true', beq_iff_eq] at whole
      refine Or.inl ⟨whole.1, fun linked => whole.2.resolve_left ?_⟩
      rw [linked]
      exact Bool.noConfusion

theorem published_spec (σ : Readback F) (out inp : ℕ) (level : Level F) :
    SameHeard σ (published D A σ out inp level).1
      ∧ ∀ report ∈ (published D A σ out inp level).2, ∃ level',
        report = .mix out (σ.column inp) level' ∧ Substantiated D A σ out (σ.column inp) := by
  unfold published Readback.column
  by_cases linked : σ.instereo inp = true
  · have left : (if (inp % 2 == 1) = true then inp - 1 else inp) = inp - inp % 2 := by
      split_ifs with odd
      · rw [beq_iff_eq.mp odd]
      · have even : inp % 2 = 0 := by simpa using odd
        rw [even, Nat.sub_zero]
    rw [if_pos linked, if_pos linked]
    dsimp only
    rw [left]
    generalize A.calclevel σ.toState out (inp - inp % 2) true = level'
    have same : SameHeard σ (if σ.outstereo out = true then
        { σ with width := fun i => if i = inp - inp % 2 then level'.width else σ.width i } else σ) := by
      split_ifs
      · exact ⟨rfl, rfl, rfl, rfl⟩
      · exact ⟨rfl, rfl, rfl, rfl⟩
    generalize (if σ.outstereo out = true then
        { σ with width := fun i => if i = inp - inp % 2 then level'.width else σ.width i } else σ) = τ at same
    obtain ⟨kept, reports⟩ := @reported_spec F D A τ out (inp - inp % 2) level'
    rw [kept]
    refine ⟨same, fun report member => ⟨level', (reports report member).1, ?_⟩⟩
    have substantiated := (reports report member).2
    refine ⟨same.outputs ▸ substantiated.output, same.inputs ▸ substantiated.input, ?_⟩
    have halves := substantiated.halves
    rwa [freshstereosilence_congr same, same.bits, same.state] at halves
  · rw [if_neg linked, if_neg linked]
    obtain ⟨kept, reports⟩ := @reported_spec F D A σ out inp level
    rw [kept]
    exact ⟨⟨rfl, rfl, rfl, rfl⟩, fun report member => ⟨level, reports report member⟩⟩

/-- What a reported half leaves: it is passed over, its cache is refused, or it is heard. -/
inductive Newmix (D : Device) (A : Decoding F) (σ : Readback F) (out inp : ℕ) (val : BitVec 16) :
    Readback F → List (Report F) → Prop
  | passed (elsewhere : ¬ (out < D.outputslen ∧ inp < D.inputslen)
      ∨ (out % 2 == 1 && σ.outstereo out) = true) : Newmix D A σ out inp val σ []
  | refused (refused : Refused D A σ out inp) : Newmix D A σ out inp val { σ with
      mixObserved := fun o i => if σ.covers D out inp o i then 0 else σ.mixObserved o i } []
  | heard (τ : Readback F) (reports : List (Report F)) (row : out < D.outputslen)
      (admitted : σ.admitted D A out inp = true)
      (bits : τ.mixObserved = (σ.observe out inp (heardBits val (σ.mixObserved out inp))).mixObserved)
      (inputs : τ.instereoObserved = σ.instereoObserved) (outputs : τ.outstereoObserved = σ.outstereoObserved)
      (instereo : τ.instereo = σ.instereo)
      (substantiated : ∀ report ∈ reports, ∃ level, report = .mix out (σ.column inp) level
        ∧ Substantiated D A τ out (σ.column inp)) : Newmix D A σ out inp val τ reports

theorem newmix_cases {σ τ : Readback F} {out inp : ℕ} {val : BitVec 16} {reports : List (Report F)}
    (taken : newmix D A σ out inp val = some (τ, reports)) : Newmix D A σ out inp val τ reports := by
  unfold newmix at taken
  by_cases beyond : D.outputslen ≤ out ∨ D.inputslen ≤ inp
  · rw [if_pos beyond] at taken
    obtain ⟨rfl, rfl⟩ := Prod.mk.inj (Option.some_inj.mp taken)
    exact .passed (Or.inl fun inside => by omega)
  rw [if_neg beyond] at taken
  by_cases second : (out % 2 == 1 && σ.outstereo out) = true
  · rw [if_pos second] at taken
    obtain ⟨rfl, rfl⟩ := Prod.mk.inj (Option.some_inj.mp taken)
    exact .passed (Or.inr second)
  rw [if_neg second] at taken
  by_cases admitted : σ.admitted D A out inp = true
  · have cache : σ.admitmixcache D A out inp = (true, σ) := if_pos admitted
    rw [cache] at taken
    dsimp only at taken
    rw [if_neg (by simp)] at taken
    generalize A.received (ispan val) (mixvalue val) _ = level at taken
    have row : out < D.outputslen := by omega
    have heard (state : State F) (instereo : state.instereo = σ.instereo)
        (result : some (published D A { σ.observe out inp (heardBits val (σ.mixObserved out inp)) with
          toState := state } out inp level) = some (τ, reports)) : Newmix D A σ out inp val τ reports := by
      have spec := @published_spec F D A { σ.observe out inp (heardBits val (σ.mixObserved out inp)) with
          toState := state } out inp level
      rw [Option.some_inj.mp result] at spec
      obtain ⟨same, substantiated⟩ := spec
      have column : Readback.column { σ.observe out inp (heardBits val (σ.mixObserved out inp)) with
          toState := state } inp = σ.column inp := by
        unfold Readback.column
        rw [show ({ σ.observe out inp (heardBits val (σ.mixObserved out inp)) with
          toState := state } : Readback F).instereo = σ.instereo from instereo]
      rw [column] at substantiated
      refine .heard τ reports row admitted same.bits same.inputs same.outputs ?_ fun report member => ?_
      · rw [same.state]
        exact instereo
      · obtain ⟨level', told, given⟩ := substantiated report member
        refine ⟨level', told, ?_⟩
        have halves := given.halves
        rw [← freshstereosilence_congr same, ← same.bits, ← same.state] at halves
        exact ⟨same.outputs ▸ given.output, same.inputs ▸ given.input, halves⟩
    rcases @setlevel_cases F D A.toArithmetic
      (σ.observe out inp (heardBits val (σ.mixObserved out inp))).toState out inp false level with
      ⟨err, refused⟩ | ⟨state, gained, committed, sent⟩
    · rw [refused] at taken
      exact heard _ rfl taken
    · rw [sent] at taken
      exact heard state committed.instereo taken
  · have cache : σ.admitmixcache D A out inp = (false, { σ with
        mixObserved := fun o i => if σ.covers D out inp o i then 0 else σ.mixObserved o i }) :=
      if_neg admitted
    rw [cache] at taken
    obtain ⟨rfl, rfl⟩ := Prod.mk.inj (Option.some_inj.mp taken)
    exact .refused ⟨by omega, by omega, by simpa using second, by simpa using admitted⟩

/-! ### Every input keeps the bits true -/

section Vouching

variable {start σ τ : Readback F} {inputs : List (Input F)} {input : Input F} {out inp : ℕ}

theorem VouchedHalf.forgotten (inputs : List (Input F)) (out inp : ℕ) :
    VouchedHalf D A start inputs out inp 0 :=
  ⟨fun bit => absurd rfl bit, fun bit => absurd rfl bit, fun _ bit => absurd rfl bit⟩

/-- What does not undo a half leaves its bits as true as they were. -/
theorem VouchedHalf.still {bits : UInt8} (half : VouchedHalf D A start inputs out inp bits)
    (reached : takes D A start inputs = some σ) (kept : ¬ LosesHalf D A out inp σ input)
    (quiet : out % 2 = 0 → ¬ input.Levels out inp) :
    VouchedHalf D A start (inputs ++ [input]) out inp bits where
  level bit := (half.level bit).still reached kept
  pan bit := (half.pan bit).still reached kept
  floor even bit := (half.floor even bit).still reached fun lost => lost.elim kept (quiet even)

/-- A link of a device's pair, or of no pair at all, is kept by what is no command. -/
theorem Vouched.links (vouched : Vouched D A start inputs σ) (reached : takes D A start inputs = some σ)
    (report : ¬ input.Command) (ins : τ.instereoObserved = σ.instereoObserved)
    (outs : τ.outstereoObserved = σ.outstereoObserved)
    (half : ∀ o < D.outputslen, ∀ i < D.inputslen,
      VouchedHalf D A start (inputs ++ [input]) o i (τ.mixObserved o i)) :
    Vouched D A start (inputs ++ [input]) τ where
  inputLinks i inside seen := (vouched.inputLinks i inside (ins ▸ seen)).still reached report
  outputLinks o inside seen := (vouched.outputLinks o inside (outs ▸ seen)).still reached report
  half := half

theorem vouched_handleosc (handlers : State F → (ℕ → ℤ) → State F × (ℕ → ℤ)) :
    Vouched D A start (inputs ++ [.command handlers]) (handleosc D handlers σ) where
  inputLinks i inside seen := by
    simp [handleosc, Readback.resetmixobservations, inside] at seen
  outputLinks o inside seen := by
    simp [handleosc, Readback.resetmixobservations, inside] at seen
  half o row i column := by
    have none : (handleosc D handlers σ).mixObserved o i = 0 := if_pos ⟨row, column⟩
    rw [none]
    exact .forgotten _ _ _

/-- A half of a crosspoint that was reported. -/
theorem VouchedHalf.heard {bits : UInt8} {val : BitVec 16}
    (half : VouchedHalf D A start inputs out inp bits) (reached : takes D A start inputs = some σ)
    (kept : ¬ LosesHalf D A out inp σ (.mix out inp val)) :
    VouchedHalf D A start (inputs ++ [.mix out inp val]) out inp (heardBits val bits) := by
  unfold heardBits
  cases span : ispan val with
  | true =>
      rw [if_pos rfl]
      refine ⟨fun bit => (half.level ?_).still reached kept, fun _ => since_now ⟨rfl, rfl, span⟩,
        fun even bit => (half.floor even ?_).still reached fun lost => lost.elim kept ?_⟩
      · rwa [← (pan_bits bits).1]
      · rwa [← (pan_bits bits).2]
      · rintro ⟨-, -, level⟩
        rw [span] at level
        cases level
  | false =>
      rw [if_neg Bool.false_ne_true]
      refine ⟨fun _ => since_now ⟨rfl, rfl, span⟩, fun bit => (half.pan ?_).still reached kept,
        fun _ bit => ?_⟩
      · have same := (level_bits bits).1 (decide (mixvalue val ≤ -650))
        simp only [decide_eq_true_eq] at same
        rwa [← same]
      · by_cases floor : mixvalue val ≤ -650
        · exact since_now ⟨rfl, rfl, span, floor⟩
        · rw [if_neg floor] at bit
          exact absurd (level_bits bits).2 bit

/-- A crosspoint covers the half that was reported of it. -/
theorem covers_self (row : out < D.outputslen) (column : inp < D.inputslen) :
    σ.covers D out inp out inp = true := by
  have rows : out < out + σ.rows out := by
    unfold Readback.rows
    split_ifs
    · omega
    · omega
  have columns : (σ.columns inp).1 ≤ inp ∧ inp < (σ.columns inp).1 + (σ.columns inp).2 := by
    unfold Readback.columns
    split_ifs
    · dsimp only
      omega
    · dsimp only
      omega
  simp [Readback.covers, row, column, rows, columns]

theorem vouched_mix {val : BitVec 16} {reports : List (Report F)} (vouched : Vouched D A start inputs σ)
    (reached : takes D A start inputs = some σ) (taken : newmix D A σ out inp val = some (τ, reports)) :
    Vouched D A start (inputs ++ [.mix out inp val]) τ := by
  cases newmix_cases taken with
  | passed elsewhere =>
      refine vouched.links reached id rfl rfl fun o row i column => (vouched.half o row i column).still
        reached ?_ ?_
      · rintro ⟨refused, -⟩
        rcases elsewhere with beyond | second
        · exact beyond ⟨refused.row, refused.column⟩
        · rw [refused.first] at second
          cases second
      · rintro even ⟨rfl, rfl, -⟩
        rcases elsewhere with beyond | second
        · exact beyond ⟨row, column⟩
        · simp [even] at second
  | refused refused =>
      refine vouched.links reached id rfl rfl fun o row i column => ?_
      dsimp only
      by_cases covered : σ.covers D out inp o i = true
      · rw [if_pos covered]
        exact .forgotten _ _ _
      · rw [if_neg covered]
        refine (vouched.half o row i column).still reached (fun lost => covered lost.2) ?_
        rintro even ⟨rfl, rfl, -⟩
        exact covered (covers_self row column)
  | heard _ _ row admitted bits ins outs instereo substantiated =>
      have unrefused (o i : ℕ) : ¬ LosesHalf D A o i σ (.mix out inp val) := by
        rintro ⟨refused, -⟩
        have other := refused.refused
        rw [admitted] at other
        cases other
      refine vouched.links reached id ins outs fun o row i column => ?_
      rw [bits]
      unfold Readback.observe
      dsimp only
      split_ifs with here
      · obtain ⟨rfl, rfl⟩ := here
        exact (vouched.half _ row _ column).heard reached (unrefused _ _)
      · refine (vouched.half o row i column).still reached (unrefused o i) ?_
        rintro even ⟨rfl, rfl, -⟩
        exact here ⟨rfl, rfl⟩

/-- What a report of a link leaves of the halves. -/
theorem VouchedHalf.relinked {changed : Bool} (half : VouchedHalf D A start inputs out inp (σ.mixObserved out inp))
    (reached : takes D A start inputs = some σ) (row : out < D.outputslen) (column : inp < D.inputslen)
    (kept : changed = false → ¬ LosesHalf D A out inp σ input) (quiet : ¬ input.Levels out inp) :
    VouchedHalf D A start (inputs ++ [input]) out inp
      ((if changed = true then σ.resetmixobservations D false else σ).mixObserved out inp) := by
  cases changed with
  | true =>
      have none : (σ.resetmixobservations D false).mixObserved out inp = 0 := if_pos ⟨row, column⟩
      rw [if_pos rfl, none]
      exact .forgotten _ _ _
  | false =>
      rw [if_neg Bool.false_ne_true]
      exact half.still reached (kept rfl) fun _ => quiet

/-- The links that were heard outlive a change of a link. -/
theorem relinked_links (changed : Bool) (σ : Readback F) :
    (if changed = true then σ.resetmixobservations D false else σ).instereoObserved = σ.instereoObserved
      ∧ (if changed = true then σ.resetmixobservations D false else σ).outstereoObserved
        = σ.outstereoObserved := by
  cases changed <;> simp [Readback.resetmixobservations]

theorem vouched_inputstereo {val : ℤ} {reports : List (Report F)} (vouched : Vouched D A start inputs σ)
    (reached : takes D A start inputs = some σ) (taken : newinputstereo D σ inp val = some (τ, reports)) :
    Vouched D A start (inputs ++ [.inputStereo inp val]) τ := by
  unfold newinputstereo at taken
  by_cases beyond : D.inputslen ≤ inp
  · rw [if_pos beyond] at taken
    cases taken
  rw [if_neg beyond] at taken
  obtain ⟨rfl, -⟩ := Prod.mk.inj (Option.some_inj.mp taken)
  obtain ⟨ins, outs⟩ := @relinked_links F D (σ.instereo (inp - inp % 2) != (val != 0)) σ
  refine ⟨fun i inside seen => ?_, fun o inside seen => ?_, fun o row i column => ?_⟩
  · by_cases here : i = inp - inp % 2 ∨ i = inp - inp % 2 + 1
    · exact since_now (show inp / 2 = i / 2 by omega)
    · dsimp only at seen
      rw [if_neg here, ins] at seen
      exact (vouched.inputLinks i inside seen).still reached id
  · dsimp only at seen
    rw [outs] at seen
    exact (vouched.outputLinks o inside seen).still reached id
  · refine (vouched.half o row i column).relinked reached row column (fun same lost => lost ?_) id
    simpa using same

theorem vouched_outputstereo {val : ℤ} {reports : List (Report F)} (vouched : Vouched D A start inputs σ)
    (reached : takes D A start inputs = some σ) (taken : newoutputstereo D σ out val = some (τ, reports)) :
    Vouched D A start (inputs ++ [.outputStereo out val]) τ := by
  unfold newoutputstereo at taken
  by_cases beyond : D.outputslen ≤ out
  · rw [if_pos beyond] at taken
    cases taken
  rw [if_neg beyond] at taken
  obtain ⟨rfl, -⟩ := Prod.mk.inj (Option.some_inj.mp taken)
  obtain ⟨ins, outs⟩ := @relinked_links F D (σ.outstereo (out - out % 2) != (val != 0)) σ
  refine ⟨fun i inside seen => ?_, fun o inside seen => ?_, fun o row i column => ?_⟩
  · dsimp only at seen
    rw [ins] at seen
    exact (vouched.inputLinks i inside seen).still reached id
  · by_cases here : o = out - out % 2 ∨ o = out - out % 2 + 1
    · exact since_now (show out / 2 = o / 2 by omega)
    · dsimp only at seen
      rw [if_neg here, outs] at seen
      exact (vouched.outputLinks o inside seen).still reached id
  · refine (vouched.half o row i column).relinked reached row column (fun same lost => lost ?_) id
    simpa using same

/-- One input keeps the bits true. -/
theorem vouched_take {reports : List (Report F)} (vouched : Vouched D A start inputs σ)
    (reached : takes D A start inputs = some σ) (taken : take D A σ input = some (τ, reports)) :
    Vouched D A start (inputs ++ [input]) τ := by
  cases input with
  | command handlers =>
      obtain ⟨rfl, -⟩ := Prod.mk.inj (Option.some_inj.mp taken)
      exact vouched_handleosc handlers
  | mix out inp val => exact vouched_mix vouched reached taken
  | inputStereo inp val => exact vouched_inputstereo vouched reached taken
  | outputStereo out val => exact vouched_outputstereo vouched reached taken

/-- Every sequence of inputs does. -/
theorem vouched_takes (cache : State F) (width : ℕ → ℤ) (inputs : List (Input F)) {σ : Readback F}
    (reached : takes D A (allocated cache width) inputs = some σ) :
    Vouched D A (allocated cache width) inputs σ := by
  induction inputs using List.reverseRecOn generalizing σ with
  | nil =>
      obtain rfl := Option.some_inj.mp reached
      exact ⟨fun _ _ seen => Bool.noConfusion seen, fun _ _ seen => Bool.noConfusion seen,
        fun o _ i _ => .forgotten [] o i⟩
  | append_singleton inputs input ih =>
      unfold takes at reached ih
      rw [List.foldlM_append] at reached
      obtain ⟨before, earlier, last⟩ := Option.bind_eq_some_iff.mp reached
      have advanced : advance D A before input = some σ := by simpa using last
      obtain ⟨⟨τ, reports⟩, taken, rfl⟩ := Option.map_eq_some_iff.mp advanced
      exact vouched_take (ih earlier) earlier taken

end Vouching

/-! ### Reports of whole crosspoints -/

/-- The channels that a report under an input covers. -/
def Readback.covered (σ : Readback F) (inp : ℕ) : List ℕ :=
  if σ.instereo inp = true then [inp, inp + 1] else [inp]

/-- Both halves of every channel, since the last command, change of a link and refusal of the cache. -/
def Halves (D : Device) (A : Decoding F) (start : Readback F) (inputs : List (Input F)) (σ : Readback F)
    (out inp : ℕ) : Prop :=
  ∀ channel ∈ σ.covered inp,
    Since (advance D A) start (Input.Levels out channel) (LosesHalf D A out channel) inputs
      ∧ Since (advance D A) start (Input.Pans out channel) (LosesHalf D A out channel) inputs

/-- Two linked pairs, the latest levels of both channels at the floor, and no coefficient but zero. -/
structure Silent (D : Device) (A : Decoding F) (start : Readback F) (inputs : List (Input F))
    (σ : Readback F) (out inp : ℕ) : Prop where
  input : σ.instereo inp = true ∧ σ.instereo (inp + 1) = true
  output : σ.outstereo out = true ∧ σ.outstereo (out + 1) = true
  floors : ∀ channel ∈ [inp, inp + 1],
    Since (advance D A) start (Input.Floors out channel) (LosesFloor D A out channel) inputs
  zero : ∀ o ∈ [out, out + 1], ∀ i ∈ [inp, inp + 1],
    A.isfinite (σ.mix o i) = true ∧ A.iszero (σ.mix o i) = true

theorem silent_of_freshstereosilence {start σ : Readback F} {inputs : List (Input F)} {out inp : ℕ}
    (vouched : Vouched D A start inputs σ) (silence : σ.freshstereosilence D A out inp = true) :
    Silent D A start inputs σ out inp := by
  simp only [Readback.freshstereosilence, Bool.and_eq_true, beq_iff_eq, decide_eq_true_eq] at silence
  obtain ⟨⟨⟨⟨⟨⟨⟨⟨⟨⟨⟨⟨⟨⟨⟨⟨⟨-, even⟩, column⟩, row⟩, left⟩, right⟩, up⟩, down⟩, -⟩, -⟩, -⟩, -⟩, first⟩,
    second⟩, ll⟩, lr⟩, rl⟩, rr⟩ := silence
  refine ⟨⟨left, right⟩, ⟨up, down⟩, ?_, ?_⟩
  · intro channel member
    rcases List.mem_pair.mp member with rfl | rfl
    · exact (vouched.half out (by omega) _ (by omega)).floor even ((complete_bits _).2 first)
    · exact (vouched.half out (by omega) _ column).floor even ((complete_bits _).2 second)
  · intro o rows i columns
    rcases List.mem_pair.mp rows with rfl | rfl
    · rcases List.mem_pair.mp columns with rfl | rfl
      · exact ll
      · exact rl
    · rcases List.mem_pair.mp columns with rfl | rfl
      · exact lr
      · exact rr

/-- A report of a whole crosspoint comes of a half of it that was heard. -/
theorem take_mix {σ τ : Readback F} {input : Input F} {reports : List (Report F)} {out inp : ℕ} {level : Level F}
    (taken : take D A σ input = some (τ, reports)) (member : .mix out inp level ∈ reports) :
    out < D.outputslen ∧ Substantiated D A τ out inp
      ∧ ∀ channel ∈ τ.covered inp, channel < D.inputslen := by
  cases input with
  | command handlers =>
      obtain ⟨-, rfl⟩ := Prod.mk.inj (Option.some_inj.mp taken)
      cases member
  | inputStereo i val =>
      have taken : newinputstereo D σ i val = some (τ, reports) := taken
      unfold newinputstereo at taken
      by_cases beyond : D.inputslen ≤ i
      · rw [if_pos beyond] at taken
        cases taken
      · rw [if_neg beyond] at taken
        obtain ⟨-, rfl⟩ := Prod.mk.inj (Option.some_inj.mp taken)
        simp at member
  | outputStereo o val =>
      have taken : newoutputstereo D σ o val = some (τ, reports) := taken
      unfold newoutputstereo at taken
      by_cases beyond : D.outputslen ≤ o
      · rw [if_pos beyond] at taken
        cases taken
      · rw [if_neg beyond] at taken
        obtain ⟨-, rfl⟩ := Prod.mk.inj (Option.some_inj.mp taken)
        simp at member
  | mix o i val =>
      cases newmix_cases taken with
      | passed _ => cases member
      | refused _ => cases member
      | heard _ _ row admitted bits ins outs instereo substantiated =>
          obtain ⟨level', told, given⟩ := substantiated _ member
          obtain ⟨rfl, rfl, -⟩ := Report.mix.inj told
          refine ⟨row, given, fun channel covered => ?_⟩
          simp only [Readback.admitted, Bool.and_eq_true, decide_eq_true_eq] at admitted
          obtain ⟨⟨columns, -⟩, -⟩ := admitted
          unfold Readback.covered at covered
          rw [instereo] at covered
          unfold Readback.columns at columns
          unfold Readback.column at covered
          by_cases linked : σ.instereo i = true
          · rw [if_pos linked] at columns covered
            dsimp only at columns
            split_ifs at covered
            · rcases List.mem_pair.mp covered with rfl | rfl <;> omega
            · obtain rfl := List.mem_singleton.mp covered
              omega
          · rw [if_neg linked] at columns covered
            rw [if_neg linked] at covered
            obtain rfl := List.mem_singleton.mp covered
            exact columns

/-- Whatever the backend is given after it has been allocated: a report of a whole crosspoint goes out only
where the links of its input and of its output were reported since the last command, and since then and since
the last change of a link and refusal of the cache both halves of every channel it covers, or the floors of
two silent pairs. A refusal forgets every half it covers. -/
theorem completeWitness (D : Device) (A : Decoding F) (cache : State F) (width : ℕ → ℤ)
    (inputs : List (Input F)) (input : Input F) (σ τ : Readback F) (reports : List (Report F))
    (reached : takes D A (allocated cache width) inputs = some σ)
    (taken : take D A σ input = some (τ, reports)) :
    (∀ out inp level, .mix out inp level ∈ reports →
      Since (advance D A) (allocated cache width) (Input.LinksInput inp) (fun _ => Input.Command)
          (inputs ++ [input])
        ∧ Since (advance D A) (allocated cache width) (Input.LinksOutput out) (fun _ => Input.Command)
          (inputs ++ [input])
        ∧ (Halves D A (allocated cache width) (inputs ++ [input]) τ out inp
          ∨ Silent D A (allocated cache width) (inputs ++ [input]) τ out inp))
      ∧ ∀ out inp val, input = .mix out inp val → Refused D A σ out inp →
        reports = [] ∧ ∀ o i, σ.covers D out inp o i = true → τ.mixObserved o i = 0 := by
  have vouched := vouched_take (vouched_takes cache width inputs reached) reached taken
  constructor
  · intro out inp level member
    obtain ⟨row, given, inside⟩ := take_mix taken member
    have column : inp < D.inputslen := by
      refine inside inp ?_
      unfold Readback.covered
      split_ifs <;> simp
    refine ⟨vouched.inputLinks inp column given.input, vouched.outputLinks out row given.output, ?_⟩
    rcases given.halves with ⟨left, right⟩ | silence
    · refine Or.inl fun channel covered => ?_
      have whole : τ.mixObserved out channel &&& 3 = 3 := by
        by_cases linked : τ.instereo inp = true
        · rw [Readback.covered, if_pos linked] at covered
          rcases List.mem_pair.mp covered with rfl | rfl
          · exact left
          · exact right linked
        · rw [Readback.covered, if_neg linked] at covered
          obtain rfl := List.mem_singleton.mp covered
          exact left
      have half := vouched.half out row channel (inside channel covered)
      exact ⟨half.level ((complete_bits _).1 whole).1, half.pan ((complete_bits _).1 whole).2⟩
    · exact Or.inr (silent_of_freshstereosilence vouched silence)
  · rintro out inp val rfl refused
    cases newmix_cases taken with
    | passed elsewhere =>
        rcases elsewhere with beyond | second
        · exact absurd ⟨refused.row, refused.column⟩ beyond
        · rw [refused.first] at second
          cases second
    | refused _ => exact ⟨rfl, fun o i covered => if_pos covered⟩
    | heard _ _ _ admitted =>
        have other := refused.refused
        rw [admitted] at other
        cases other

/-- Coefficients as multiples of `1 / 0x8000`, of levels at the floor or at full scale. -/
def floorOrFull : Decoding ℤ where
  toArithmetic := fixedPoint
  iszero level := level == 0
  received span val level :=
    if span then { level with pan := val } else { level with vol := if val ≤ -650 then 0 else 0x8000 }

/-- Both levels of a linked pair at the floor at a linked pair of outputs, and no pan at all. -/
theorem completeWitness_silentPair :
    ∃ σ τ reports level,
      takes (square 2) floorOrFull (allocated (silence []) fun _ => 100)
        [.inputStereo 0 1, .outputStereo 0 1, .mix 0 0 0x7d76] = some σ
      ∧ take (square 2) floorOrFull σ (.mix 0 1 0x7d76) = some (τ, reports)
      ∧ .mix 0 0 level ∈ reports
      ∧ (Halves (square 2) floorOrFull (allocated (silence []) fun _ => 100)
          ([.inputStereo 0 1, .outputStereo 0 1, .mix 0 0 0x7d76] ++ [.mix 0 1 0x7d76]) τ 0 0
        ∨ Silent (square 2) floorOrFull (allocated (silence []) fun _ => 100)
          ([.inputStereo 0 1, .outputStereo 0 1, .mix 0 0 0x7d76] ++ [.mix 0 1 0x7d76]) τ 0 0) :=
  ⟨_, _, _, _, rfl, rfl, List.mem_singleton.mpr rfl,
    ((completeWitness (square 2) floorOrFull (silence []) (fun _ => 100)
      [.inputStereo 0 1, .outputStereo 0 1, .mix 0 0 0x7d76] (.mix 0 1 0x7d76) _ _ _ rfl rfl).1 0 0 _
        (List.mem_singleton.mpr rfl)).2.2⟩

end OscmixDesk.Matrix
