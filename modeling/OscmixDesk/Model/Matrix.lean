/-
**The mix coefficients of the backend** (`oscmix.c` with the patches 0012 and 0013).

The backend keeps a coefficient for every output and every input or playback channel, and writes each into the
register that the device has for it. An edit plans all its words first, in one packet, and a mute of a playback
channel writes the channel's whole column. Channels and outputs are indices, `in - inputs` and `out - outputs`;
the playback channels come after the inputs.

The floating point is a parameter, and so is what lies outside the patches: the parsing before an edit, and
`calclevel`.
-/

import Mathlib.Algebra.Order.Ring.Int
import Mathlib.Data.List.Basic

namespace OscmixDesk.Matrix

/-- What a crosspoint has a register for: its coefficient, or its DB and PAN. -/
inductive Control
  | mixLevel
  | mix
  deriving DecidableEq, Repr

/-- What the code asks of `device`. -/
structure Device where
  inputslen : ℕ
  outputslen : ℕ
  /-- `ctltoreg(ctl, {.in, .out})`. -/
  ctltoreg : Control → ℕ → ℕ → ℤ

/-- `struct level`. -/
structure Level (F : Type) where
  vol : F
  pan : ℤ
  width : ℤ

/-- `ll`, `lr`, `rl` and `rr`: from the left or the right channel to the left or the right output. -/
structure Coefficients (F : Type) where
  ll : F
  lr : F
  rl : F
  rr : F

/-- The fields of `inputs` and `outputs` that the mix reads. -/
structure State (F : Type) where
  /-- `outputs[out].mix[in]`. -/
  mix : ℕ → ℕ → F
  /-- Whether `outputs[out].mix` is allocated. -/
  mixed : ℕ → Bool
  outstereo : ℕ → Bool
  instereo : ℕ → Bool
  mute : ℕ → Bool

/-- The cache after `outputs[out].mix[in] = value`. -/
def State.store {F : Type} (σ : State F) (out inp : ℕ) (value : F) : State F :=
  { σ with mix := fun o i => if o = out ∧ i = inp then value else σ.mix o i }

/-- The state after `inputs[in].mute = mute`. -/
def State.setMute {F : Type} (σ : State F) (inp : ℕ) (mute : Bool) : State F :=
  { σ with mute := fun i => if i = inp then mute else σ.mute i }

/-- What the code does with a `float`. -/
structure Arithmetic (F : Type) where
  zero : F
  isfinite : F → Bool
  negative : F → Bool
  aboveTwo : F → Bool
  /-- `lroundf(level * 0x8000)`. -/
  scaled : F → ℤ
  /-- `isinf(db) && db < 0 ? -650 : lroundf(db * 10.f)` at `20.f * log10f(vol)`. -/
  tenths : F → ℤ
  /-- A pair to a pair of outputs. -/
  wide : Level F → Coefficients F
  /-- `cosf(theta) * l->vol` and `sinf(theta) * l->vol`. -/
  panned : Level F → F × F
  /-- A pair to one output: `ll` and `rl`. -/
  folded : Level F → F × F
  calclevel : State F → (out inp : ℕ) → (instereo : Bool) → Level F
  scaled_zero : scaled zero = 0
  scaled_range : ∀ level, isfinite level = true → negative level = false → aboveTwo level = false →
    0 ≤ scaled level ∧ scaled level ≤ 0x10000

/-- A word of a packet: its address and its value, and the control and crosspoint that it is for. -/
structure Word where
  control : Control
  inp : ℕ
  out : ℕ
  reg : ℤ
  val : ℤ
  deriving DecidableEq, Repr

section

variable {F : Type} (D : Device) (A : Arithmetic F)

/-- A coefficient that may be sent: `isfinite(level) && level >= 0 && level <= 2`. -/
def Arithmetic.admits (level : F) : Bool :=
  A.isfinite level && !A.negative level && !A.aboveTwo level

def mixlevelvalue (level : F) : ℤ :=
  let val := A.scaled level
  if 0x4000 < val then val / 8 - 0x8000 else val

def dbvalue (vol : F) : ℤ :=
  A.tenths vol % 0x8000

def panvalue (pan : ℤ) : ℤ :=
  pan % 0x8000 + 0x8000

/-! ### Packets -/

/-- `MIX_WRITE_MAX_WORDS`. -/
def mixWriteMaxWords : ℕ := 8

/-- `struct mixwrites`, which `count` words are in. -/
abbrev Packet := List Word

/-- The packet with one more word, or `-1`. -/
def mixwrite (writes : Packet) (word : Word) : Option Packet :=
  if word.reg < 0 ∨ 0x7fff < word.reg ∨ mixWriteMaxWords ≤ writes.length then none
  else some (writes ++ [word])

/-- The frames that go out: none for an empty packet. The assertion on the count failing is `none`. -/
def writemix (writes : Packet) : Option (List Packet) :=
  if mixWriteMaxWords < writes.length then none
  else if writes.length = 0 then some []
  else some [writes]

def planmixlevel (writes : Packet) (inp out : ℕ) (level : F) : Option Packet :=
  if !A.admits level then none
  else
    let reg := D.ctltoreg .mixLevel inp out
    if writes.any (·.reg == reg) then none
    else mixwrite writes ⟨.mixLevel, inp, out, reg, mixlevelvalue A level⟩

/-! ### Edits -/

/-- The coefficients of a level; those that its link shape has no crosspoint for stay zero. -/
def coefficients (instereo outstereo : Bool) (l : Level F) : Coefficients F :=
  match outstereo, instereo with
  | true, true => A.wide l
  | true, false =>
      if l.pan = -100 then ⟨l.vol, A.zero, A.zero, A.zero⟩
      else if l.pan = 100 then ⟨A.zero, l.vol, A.zero, A.zero⟩
      else ⟨(A.panned l).1, (A.panned l).2, A.zero, A.zero⟩
  | false, true => ⟨(A.folded l).1, A.zero, (A.folded l).2, A.zero⟩
  | false, false => ⟨l.vol, A.zero, A.zero, A.zero⟩

/-- The words of the crosspoints, in the order of the code. -/
def planwords (pending : Packet) (out inp : ℕ) (instereo outstereo : Bool) (c : Coefficients F) :
    Option Packet := do
  let pending ← if instereo then planmixlevel D A pending (inp + 1) out c.rl else some pending
  let pending ←
    if instereo && outstereo then planmixlevel D A pending (inp + 1) (out + 1) c.rr else some pending
  let pending ← planmixlevel D A pending inp out c.ll
  if outstereo then planmixlevel D A pending inp (out + 1) c.lr else some pending

/-- The cache with the coefficients of an edit. -/
def State.commit (σ : State F) (out inp : ℕ) (instereo outstereo : Bool) (c : Coefficients F) : State F :=
  let σ := if instereo then σ.store out (inp + 1) c.rl else σ
  let σ :=
    if outstereo then
      let σ := if instereo then σ.store (out + 1) (inp + 1) c.rr else σ
      σ.store (out + 1) inp c.lr
    else σ
  σ.store out inp c.ll

/-- What `planlevel` returns, and the cache and the caller's packet as it leaves them. -/
def planlevel (σ : State F) (out inp : ℕ) (instereo : Bool) (l : Level F) (writes : Packet) :
    ℤ × State F × Packet :=
  if mixWriteMaxWords < writes.length then (-1, σ, writes)
  else
    let instereo := instereo && σ.instereo inp
    let inp := if instereo && inp % 2 == 1 then inp - 1 else inp
    let out := if σ.outstereo out && out % 2 == 1 then out - 1 else out
    let outstereo := σ.outstereo out
    if !A.isfinite l.vol || A.negative l.vol || l.pan < -100 || 100 < l.pan ||
        (instereo && outstereo && (l.width < -100 || 100 < l.width)) then (-1, σ, writes)
    else
      let c := coefficients A instereo outstereo l
      -- every proposed coefficient, even for a muted edit
      if !A.admits c.ll || !A.admits c.lr || !A.admits c.rl || !A.admits c.rr then (-1, σ, writes)
      else
        match if σ.mute inp then some writes else planwords D A writes out inp instereo outstereo c with
        | none => (-1, σ, writes)
        | some pending => (0, σ.commit out inp instereo outstereo c, pending)

/-- What handling a command leaves: the error it set, the state, and the frames that went out. -/
structure Handled (F : Type) where
  err : Option String
  state : State F
  frames : List Packet

def setlevel (σ : State F) (out inp : ℕ) (instereo : Bool) (l : Level F) : Option (Handled F) :=
  let (code, σ, writes) := planlevel D A σ out inp instereo l []
  if code < 0 then some ⟨some "invalid mix coefficient or mapping", σ, []⟩
  else do
    let frames ← writemix writes
    return ⟨none, σ, frames⟩

/-- What the parsing before an edit found. -/
structure Edit (F : Type) where
  out : ℕ
  inp : ℕ
  level : Level F

/-- The DB and PAN words at the addresses from the `j`-th on; the assertion on the capacity failing is `none`. -/
def appendMetadata (σ : State F) (out inp j : ℕ) : List ℤ → Packet → Option Packet
  | [], writes => some writes
  | reg :: metadata, writes =>
      let level := A.calclevel σ out (inp + j) false
      if mixWriteMaxWords < writes.length + 2 then none
      else
        let writes := (mixwrite writes ⟨.mix, inp + j, out, reg, dbvalue A level.vol⟩).getD writes
        let writes := (mixwrite writes ⟨.mix, inp + j, out, reg, panvalue level.pan⟩).getD writes
        appendMetadata σ out inp (j + 1) metadata writes

/-- The `setmix` of a message whose parsing gave `parsed`; an assertion failing is `none`. -/
def setmix (σ : State F) (parsed : Except String (Edit F)) : Option (Handled F) :=
  match parsed with
  | .error err => some ⟨some err, σ, []⟩
  | .ok ⟨out, inp, level⟩ =>
      let count := if inp < D.inputslen then (if σ.instereo inp then 2 else 1) else 0
      let metadata := (List.range count).map fun j => D.ctltoreg .mix (inp + j) out
      if metadata.any fun reg => reg < 0 || 0x7fff < reg then
        some ⟨some "invalid mix metadata mapping", σ, []⟩
      else
        let (code, σ, writes) := planlevel D A σ out inp true level []
        if code < 0 then some ⟨some "invalid mix coefficient or mapping", σ, []⟩
        else do
          let writes ← appendMetadata A σ out inp 0 metadata writes
          let frames ← writemix writes
          return ⟨none, σ, frames⟩

/-! ### Mutes of playback channels -/

/-- `PLAYBACK_MUTE_MAX_OUTPUTS`. -/
def playbackMuteMaxOutputs : ℕ := 20

/-- A crosspoint that a mute writes: `regs[words]` and `levels[words]`. -/
structure Prepared (F : Type) where
  inp : ℕ
  out : ℕ
  reg : ℤ
  level : F

def prepareWord (σ : State F) (out inp : ℕ) (words : List (Prepared F)) : Option (List (Prepared F)) :=
  let reg := D.ctltoreg .mixLevel inp out
  let level := σ.mix out inp
  if reg < 0 || 0x7fff < reg || !A.admits level || words.any (·.reg == reg) then none
  else some (words ++ [⟨inp, out, reg, level⟩])

/-- The crosspoints of `width` channels from the given one on at every output. -/
def prepareColumns (σ : State F) (inp width : ℕ) : Option (List (Prepared F)) :=
  (List.range D.outputslen).foldlM (fun words out =>
    if !σ.mixed out then none
    else (List.range width).foldlM (fun words i => prepareWord D A σ out (inp + i) words) words) []

/-- The word that a mute sends of a crosspoint. -/
def Prepared.word (mute : Bool) (p : Prepared F) : Word :=
  ⟨.mixLevel, p.inp, p.out, p.reg, mixlevelvalue A (if mute then A.zero else p.level)⟩

/-- What `muteplayback` returns, and the state and the frames it leaves. -/
def muteplayback (σ : State F) (inp : ℕ) (mute : Bool) : ℤ × State F × List Packet :=
  if D.inputslen < 1 ∨ playbackMuteMaxOutputs < D.inputslen ∨ D.outputslen < 1 ∨
      playbackMuteMaxOutputs < D.outputslen then (-1, σ, [])
  else if inp < D.inputslen ∨ D.outputslen ≤ inp - D.inputslen then (-1, σ, [])
  else
    let linked := σ.instereo inp
    let odd := linked && (inp - D.inputslen) % 2 == 1
    let channel := if odd then inp - D.inputslen - 1 else inp - D.inputslen
    let inp := if odd then inp - 1 else inp
    let width := if linked then 2 else 1
    if D.outputslen < channel + width ∨ linked && (!σ.instereo inp || !σ.instereo (inp + 1)) then (-1, σ, [])
    else
      match prepareColumns D A σ (D.inputslen + channel) width with
      | none => (-1, σ, [])
      | some words =>
          let frame := words.map (Prepared.word A mute)
          let σ := σ.setMute inp mute
          (0, if linked then σ.setMute (inp + 1) mute else σ, [frame])

/-! ### Commands -/

/-- A command that changes coefficients or mutes. -/
inductive Command (F : Type)
  /-- `/mix/<output>/…`, parsed. -/
  | mix (parsed : Except String (Edit F))
  /-- A call of `setlevel`. -/
  | level (edit : Edit F) (instereo : Bool)
  /-- `/playback/<channel>/mute`. -/
  | mute (inp : ℕ) (mute : Bool)

def handle (σ : State F) : Command F → Option (Handled F)
  | .mix parsed => setmix D A σ parsed
  | .level edit instereo => setlevel D A σ edit.out edit.inp instereo edit.level
  | .mute inp mute =>
      let (code, σ, frames) := muteplayback D A σ inp mute
      some ⟨if code < 0 then some "invalid playback cached matrix or mapping" else none, σ, frames⟩

/-- The state of the backend and the frames it has sent. -/
structure World (F : Type) where
  state : State F
  sent : List Packet

/-- The world after a command; an assertion failing is `none`. -/
def World.step (w : World F) (command : Command F) : Option (World F) := do
  let handled ← handle D A w.state command
  return ⟨handled.state, w.sent ++ handled.frames⟩

/-- The world after commands. -/
def World.run (w : World F) (commands : List (Command F)) : Option (World F) :=
  commands.foldlM (World.step D A) w

end

end OscmixDesk.Matrix
