/-
**What the device reports of the input mix** (`oscmix.c` with the patches 0004, 0011, 0013 and 0014).

The device reports each half of a crosspoint, its level and its pan, in a word of its own, and the links of
inputs and outputs. The backend keeps, beside the coefficients, which halves and links it has heard of since
the last command, and sends a report of the whole crosspoint only where they substantiate it.

The lines of `newmix` before `setlevel` that no patch shows are a parameter, as the handlers of the commands
are.
-/

import Mathlib.Data.Nat.Notation
import OscmixDesk.Model.Matrix

namespace OscmixDesk.Matrix

/-- What `newmix` does with a `float` and a level besides. -/
structure Decoding (F : Type) extends Arithmetic F where
  /-- `value == 0`. -/
  iszero : F → Bool
  /-- The level with a pan or a level of the device in place of its own. -/
  received : (ispan : Bool) → (val : ℤ) → Level F → Level F

/-- The cache, and what was heard of the device since the last command. -/
structure Readback (F : Type) extends State F where
  width : ℕ → ℤ
  instereoObserved : ℕ → Bool := fun _ => false
  outstereoObserved : ℕ → Bool := fun _ => false
  /-- `outputs[out].mix_observed[in]`: 1 for a level, 2 for a pan, 4 for a level at the floor. -/
  mixObserved : ℕ → ℕ → UInt8 := fun _ _ => 0

/-- What goes out as OSC. -/
inductive Report (F : Type)
  | inputStereo (inp : ℕ) (val : Bool)
  | outputStereo (out : ℕ) (val : Bool)
  /-- `/mix/<out>/input/<in>`. -/
  | mix (out inp : ℕ) (level : Level F)

/-- What reaches the backend: a command or a REFRESH, which does to the cache what its handlers do, and the
device's reports. -/
inductive Input (F : Type)
  | command (handlers : State F → (ℕ → ℤ) → State F × (ℕ → ℤ))
  | mix (out inp : ℕ) (val : BitVec 16)
  | inputStereo (inp : ℕ) (val : ℤ)
  | outputStereo (out : ℕ) (val : ℤ)

section

variable {F : Type} (D : Device) (A : Decoding F)

namespace Readback

/-- `outputs[out].mix_observed[in]` is changed. -/
def observe (σ : Readback F) (out inp : ℕ) (bits : UInt8) : Readback F :=
  { σ with mixObserved := fun o i => if o = out ∧ i = inp then bits else σ.mixObserved o i }

def resetmixobservations (links : Bool) (σ : Readback F) : Readback F :=
  { σ with
    mixObserved := fun o i => if o < D.outputslen ∧ i < D.inputslen then 0 else σ.mixObserved o i
    outstereoObserved := fun o => σ.outstereoObserved o && !(links && decide (o < D.outputslen))
    instereoObserved := fun i => σ.instereoObserved i && !(links && decide (i < D.inputslen)) }

/-- The first of the columns that `calclevel` reads of an input, and how many they are. -/
def columns (σ : Readback F) (inp : ℕ) : ℕ × ℕ :=
  if σ.instereo inp then (inp - inp % 2, 2) else (inp, 1)

/-- How many rows it reads of an output. -/
def rows (σ : Readback F) (out : ℕ) : ℕ :=
  if σ.outstereo out then 2 else 1

/-- Whether `admitmixcache` finds the cache of a crosspoint finite and in its bounds. -/
def admitted (σ : Readback F) (out inp : ℕ) : Bool :=
  let (first, columns) := σ.columns inp
  decide (first + columns ≤ D.inputslen) && decide (out + σ.rows out ≤ D.outputslen)
    && (List.range (σ.rows out)).all fun row => (List.range columns).all fun column =>
      A.admits (σ.mix (out + row) (first + column))

/-- Whether a half is one of those that a crosspoint covers. -/
def covers (σ : Readback F) (out inp o i : ℕ) : Bool :=
  let (first, columns) := σ.columns inp
  decide (out ≤ o) && decide (o < out + σ.rows out) && decide (o < D.outputslen)
    && decide (first ≤ i) && decide (i < first + columns) && decide (i < D.inputslen)

/-- A refusal forgets what was heard of the crosspoint. -/
def admitmixcache (σ : Readback F) (out inp : ℕ) : Bool × Readback F :=
  if σ.admitted D A out inp then (true, σ)
  else (false, { σ with
    mixObserved := fun o i => if σ.covers D out inp o i then 0 else σ.mixObserved o i })

def freshstereosilence (σ : Readback F) (out inp : ℕ) : Bool :=
  let silent := fun o i => A.isfinite (σ.mix o i) && A.iszero (σ.mix o i)
  inp % 2 == 0 && out % 2 == 0 && decide (inp + 1 < D.inputslen) && decide (out + 1 < D.outputslen)
    && σ.instereo inp && σ.instereo (inp + 1) && σ.outstereo out && σ.outstereo (out + 1)
    && σ.instereoObserved inp && σ.instereoObserved (inp + 1)
    && σ.outstereoObserved out && σ.outstereoObserved (out + 1)
    && σ.mixObserved out inp &&& 5 == 5 && σ.mixObserved out (inp + 1) &&& 5 == 5
    && silent out inp && silent (out + 1) inp && silent out (inp + 1) && silent (out + 1) (inp + 1)

end Readback

/-- `((val & 0x7fff) ^ 0x4000) - 0x4000`. -/
def mixvalue (val : BitVec 16) : ℤ :=
  (((val &&& 0x7fff) ^^^ 0x4000).toNat : ℤ) - 0x4000

def ispan (val : BitVec 16) : Bool :=
  val &&& 0x8000 != 0

/-- What a half is heard as. -/
def heardBits (val : BitVec 16) (bits : UInt8) : UInt8 :=
  if ispan val then bits ||| 2
  else bits &&& ~~~4 ||| (if mixvalue val ≤ -650 then 5 else 1)

/-- The end of `newmix`: nothing goes out for halves or links that were not heard. -/
def reported (σ : Readback F) (out inp : ℕ) (level : Level F) : Readback F × List (Report F) :=
  let complete := σ.mixObserved out inp &&& 3 == 3
    && (!σ.instereo inp || σ.mixObserved out (inp + 1) &&& 3 == 3)
  if !σ.outstereoObserved out || !σ.instereoObserved inp
      || (!complete && !σ.freshstereosilence D A out inp) then (σ, [])
  else (σ, [.mix out inp level])

/-- What `newmix` does once `setlevel` is through: a pair is reported as one, under its left channel. -/
def published (σ : Readback F) (out inp : ℕ) (level : Level F) : Readback F × List (Report F) :=
  if σ.instereo inp then
    let inp := if inp % 2 == 1 then inp - 1 else inp
    let level := A.calclevel σ.toState out inp true
    let σ :=
      if σ.outstereo out then { σ with width := fun i => if i = inp then level.width else σ.width i } else σ
    reported D A σ out inp level
  else reported D A σ out inp level

/-- A half of a crosspoint; an assertion of `setlevel` failing is `none`. -/
def newmix (σ : Readback F) (out inp : ℕ) (val : BitVec 16) : Option (Readback F × List (Report F)) :=
  if D.outputslen ≤ out ∨ D.inputslen ≤ inp then some (σ, [])
  else if out % 2 == 1 && σ.outstereo out then some (σ, [])
  else
    let (valid, σ) := σ.admitmixcache D A out inp
    if !valid then some (σ, [])
    else do
      let σ := σ.observe out inp (heardBits val (σ.mixObserved out inp))
      let level := A.received (ispan val) (mixvalue val) (A.calclevel σ.toState out inp false)
      let handled ← setlevel D A.toArithmetic σ.toState out inp false level
      return published D A { σ with toState := handled.state } out inp level

/-- A link of a pair of inputs; the assertion on the index failing is `none`. -/
def newinputstereo (σ : Readback F) (inp : ℕ) (val : ℤ) : Option (Readback F × List (Report F)) :=
  if D.inputslen ≤ inp then none
  else
    let left := inp - inp % 2
    let σ := if σ.instereo left != (val != 0) then σ.resetmixobservations D false else σ
    some ({ σ with
      instereo := fun i => if i = left ∨ i = left + 1 then val != 0 else σ.instereo i
      instereoObserved := fun i => if i = left ∨ i = left + 1 then true else σ.instereoObserved i },
      [.inputStereo (left + 1) (val != 0), .inputStereo (left + 2) (val != 0)])

/-- A link of a pair of outputs. -/
def newoutputstereo (σ : Readback F) (out : ℕ) (val : ℤ) : Option (Readback F × List (Report F)) :=
  if D.outputslen ≤ out then none
  else
    let left := out - out % 2
    let σ := if σ.outstereo left != (val != 0) then σ.resetmixobservations D false else σ
    some ({ σ with
      outstereo := fun o => if o = left ∨ o = left + 1 then val != 0 else σ.outstereo o
      outstereoObserved := fun o => if o = left ∨ o = left + 1 then true else σ.outstereoObserved o },
      [.outputStereo (left + 1) (val != 0), .outputStereo (left + 2) (val != 0)])

/-- A command that is read. Its handlers know nothing of what was heard. -/
def handleosc (handlers : State F → (ℕ → ℤ) → State F × (ℕ → ℤ)) (σ : Readback F) : Readback F :=
  let σ := σ.resetmixobservations D true
  let (state, width) := handlers σ.toState σ.width
  { σ with toState := state, width := width }

/-- One input. -/
def take (σ : Readback F) : Input F → Option (Readback F × List (Report F))
  | .command handlers => some (handleosc D handlers σ, [])
  | .mix out inp val => newmix D A σ out inp val
  | .inputStereo inp val => newinputstereo D σ inp val
  | .outputStereo out val => newoutputstereo D σ out val

/-- What one input leaves; `none` where an assertion fails. -/
def advance (σ : Readback F) (input : Input F) : Option (Readback F) :=
  Prod.fst <$> take D A σ input

/-- The backend as it is allocated: nothing has been heard. -/
def allocated (cache : State F) (width : ℕ → ℤ) : Readback F :=
  { toState := cache, width := width }

/-- What the inputs leave, in turn. -/
def takes (σ : Readback F) (inputs : List (Input F)) : Option (Readback F) :=
  inputs.foldlM (advance D A) σ

end

end OscmixDesk.Matrix
