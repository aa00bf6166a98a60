/-
**What the journals say of the playback matrix** (`journal.py`, `seen.py`, `playstate.py`).

Every user keeps a journal of the acknowledged writes and a record of the reports of CC Mix and CC Mode, each
with a stamp: a journal's is the time it was stored, a record's the time the report was seen. `playbackState`
reads the newest entry of each register against the start of the running backend. An `Interface` is what
happens around one interface: backends start and exit, and one operation after the other, under the device
lock, has writes acknowledged, sees reports, and stores both. Files are taken as the mappings they hold.
-/

import OscmixDesk.Foundation.Newest
import OscmixDesk.Model.Reconcile

namespace OscmixDesk

/-! ### Stamps -/

/-- Seconds as a stamp: microseconds. -/
def stampOf (seconds : ℚ) : ℤ :=
  roundHalfEven (seconds * 1000000)

/-- The time a stamp names. -/
def stampSeconds (stamp : ℤ) : ℚ :=
  stamp / 1000000

/-- Whether a stamp names a time behind the start. -/
def since (stamp : ℤ) (started : ℚ) : Bool :=
  decide (started < stampSeconds stamp)

/-! ### Journals and records -/

/-- What a register was written to, or reported, and when. -/
structure Stamped where
  message : Message
  stamp : ℤ
  deriving DecidableEq, Repr

def Stamped.path (entry : Stamped) : Path := entry.message.path

/-- One user's file. -/
abbrev Journal := Keyed Stamped.path

def maxEntries : ℕ := 20000

/-- `record_written`: the writes are stored with the time of the storing, where they fit. -/
def recordWritten (journal : Journal) (written : List Message) (now : ℚ) : Option Journal :=
  let stored := written.foldl (fun journal message => journal.put ⟨message, stampOf now⟩) journal
  if written = [] then some journal
  else if maxEntries < stored.items.length then none
  else some stored

/-- A report, and when it was seen. -/
structure Sight where
  report : Message
  time : ℚ
  deriving DecidableEq, Repr

def Sight.path (sight : Sight) : Path := sight.report.path

def ccMix : Path := .global "hardware" (some "ccmix")
def ccMode : Path := .global "hardware" (some "ccmode")

/-- `record_seen`: the reports are stored with the time they were seen. -/
def recordSeen (record : Journal) (reports : List Sight) : Journal :=
  reports.foldl (fun record sight => record.put ⟨sight.report, stampOf sight.time⟩) record

/-- The file of a user. -/
structure UserFile where
  user : ℕ
  journal : Journal

/-- The files of every user. -/
abbrev Files := Keyed UserFile.user

/-- The journal of a user; a missing file holds nothing. -/
def journalOf (files : Files) (user : ℕ) : Journal :=
  ((files.get? user).map UserFile.journal).getD Keyed.empty

/-- `read_journals`: every user's file, by its name, and per register the latest entry. -/
def readJournals (files : Files) : Journal :=
  newest Stamped.stamp ((files.items.mergeSort fun one other =>
    toString one.user ≤ toString other.user).flatMap fun file => file.journal.items)

/-! ### The state of the playback matrix -/

/-- A register of the playback matrix, or a playback link or mute flag. -/
def isPlayback : Path → Bool
  | .channel family _ _ => family = .playback
  | .mix _ kind _ => kind = .playback
  | .global family option => family = "playback" && option.isSome

/-- Python's `float`. -/
def asFloat : Value → Option PyFloat
  | .int number => some (binary64 number)
  | .float number => some number
  | .str text => Text.readFloat text.toList

/-- Whether two arguments of a tag agree. -/
def sameArg (tag : Char) (want got : Value) : Bool :=
  if tag = 'f' then
    match asFloat want, asFloat got with
    | some want, some got => want = got && want ≠ .nan
    | _, _ => false
  else want = got

/-- `_same`: whether a recorded write carries the declared value. -/
def sameValue (declared written : Message) : Bool :=
  written.tags = declared.tags && written.args.length = declared.args.length
    && (declared.tags.toList.zip (declared.args.zip written.args)).all fun arg =>
      sameArg arg.1 arg.2.1 arg.2.2

/-- `_mix_mode`: CC Mix as the device last reported it since the start. -/
def mixMode (device : Device) (seen : Journal) (started : ℚ) : Option (ℕ × String) := do
  let report ← seen.get? ccMix
  let register ← registerAt (some device) ccMix
  if !since report.stamp started then none
  else
    match report.message.tags.toList.head?, report.message.args.head? with
    | some 'i', some (.int index) =>
        if 0 ≤ index then register.choices[index.toNat]?.map fun name => (index.toNat, name) else none
    | _, _ => none

/-- `_cc_mode_on`. -/
def ccModeOn (seen : Journal) (started : ℚ) : Bool :=
  (seen.get? ccMode).any fun report =>
    since report.stamp started && report.message.tags = "i" && report.message.args = [.int 1]

/-- Why nothing is known. -/
inductive Unknown
  | noBackend
  | modeNotOn (ccmix : String)
  | writtenInPreset (ccmix : String) (writes : ℕ)
  | nothingDeclared
  | missing (registers declared : ℕ)
  | differing (paths : List Path)
  | noMix
  deriving DecidableEq, Repr

inductive PlaybackInfo
  | notApplicable
  | unknown (why : Unknown)
  | known (ccmix : String)
  | reestablished (declared : ℕ) (last : Option ℤ) (ccmix : String)
  deriving DecidableEq, Repr

/-- `_preset`. -/
def preset (name : String) (modeOn : Bool) (writes : ℕ) : PlaybackInfo :=
  if !modeOn then .unknown (.modeNotOn name)
  else if writes ≠ 0 then .unknown (.writtenInPreset name writes)
  else .known name

/-- The playback registers a desk declares. -/
def declaredPlayback (config : Config) : Except Fault (List Message) := do
  return ((← desired config).filter fun entry => isPlayback entry.path).map fun entry =>
    ⟨entry.path, entry.tags, entry.args⟩

/-- `playback_state`, where the desk declares these registers. -/
def judgePlayback (device : Device) (declared : List Message) (journal seen : Journal) (started : ℚ) :
    PlaybackInfo :=
  let written := journal.items.filter fun entry => isPlayback entry.path && since entry.stamp started
  let mix := mixMode device seen started
  match mix.filter fun mode => mode.1 ≠ 0 with
  | some mode => preset mode.2 (ccModeOn seen started) written.length
  | none =>
      let missing := declared.filter fun message => !(written.map Stamped.path).contains message.path
      let differs := declared.filter fun message =>
        !(journal.get? message.path).any fun entry => sameValue message entry.message
      if declared = [] then .unknown .nothingDeclared
      else if missing ≠ [] then .unknown (.missing missing.length declared.length)
      else if differs ≠ [] then .unknown (.differing (differs.map (·.path)))
      else
        match mix with
        | none => .unknown .noMix
        | some mode =>
            .reestablished declared.length
              ((written.filter fun entry => (declared.map (·.path)).contains entry.path).map
                Stamped.stamp).max? mode.2

/-- `playback_state`. -/
def playbackState (config : Config) (journal seen : Journal) (started : Option ℚ) :
    Except Fault PlaybackInfo :=
  match deviceForName config.deviceName with
  | none => .ok .notApplicable
  | some device =>
      if config.usbId ≠ defaultUsbId then .ok .notApplicable
      else
        match started with
        | none => .ok (.unknown .noBackend)
        | some started => do
            let declared ← declaredPlayback config
            return judgePlayback device declared journal seen started

/-! ### What happens around an interface -/

/-- An operation under the device lock, on a connection to one backend. -/
structure Holder where
  user : ℕ
  backend : ℕ
  /-- Acknowledged, and not stored yet. -/
  written : Keyed Message.path := Keyed.empty
  /-- Seen, and not stored yet. -/
  reported : Keyed Sight.path := Keyed.empty

/-- A write the history acknowledged: by which backend, and when. -/
structure Ack where
  message : Message
  backend : ℕ
  time : ℚ
  deriving DecidableEq, Repr

def Ack.path (ack : Ack) : Path := ack.message.path

structure Interface where
  clock : ℚ := 0
  /-- How many backends have started, and when the last one did. -/
  backends : ℕ := 0
  started : ℚ := 0
  running : Bool := false
  holder : Option Holder := none
  journals : Files := Keyed.empty
  records : Files := Keyed.empty
  /-- Everything that was acknowledged, and every report that was noted. -/
  acks : List Ack := []
  sights : List Sight := []

inductive Happening
  | start
  | exit
  /-- An operation of a user takes the lock and connects. -/
  | take (user : ℕ)
  | acknowledge (message : Message)
  /-- A report of the backend. One without a type tag would leave a record that no reader takes. -/
  | see (report : Message) (tagged : report.tags ≠ "")
  /-- `_record`. -/
  | store
  /-- The lock is released, behind the last `_record`. -/
  | release
  deriving DecidableEq, Repr

namespace Interface

/-- `_wrote`. -/
def acknowledge (message : Message) (holder : Holder) (now : ℚ) (i : Interface) : Interface :=
  { i with
    holder := some { holder with written := holder.written.put message }
    acks := i.acks ++ [⟨message, holder.backend, now⟩] }

/-- `_saw`: CC Mix and CC Mode are noted. -/
def see (report : Message) (holder : Holder) (now : ℚ) (i : Interface) : Interface :=
  if report.path = ccMix ∨ report.path = ccMode then
    { i with
      holder := some { holder with reported := holder.reported.put ⟨report, now⟩ }
      sights := i.sights ++ [⟨report, now⟩] }
  else i

/-- `_record`, where the journal takes the writes. -/
def store (holder : Holder) (now : ℚ) (i : Interface) : Option Interface :=
  (recordWritten (journalOf i.journals holder.user) holder.written.items now).map fun journal =>
    { i with
      holder := some { holder with written := Keyed.empty, reported := Keyed.empty }
      journals := i.journals.put ⟨holder.user, journal⟩
      records := i.records.put
        ⟨holder.user, recordSeen (journalOf i.records holder.user) holder.reported.items⟩ }

/-- What happens next, if it can. -/
def happen (now : ℚ) (i : Interface) : Happening → Option Interface
  | .start =>
      if i.running then none
      else some { i with backends := i.backends + 1, started := now, running := true }
  | .exit => if i.running then some { i with running := false } else none
  | .take user =>
      if i.running ∧ i.holder.isNone then some { i with holder := some { user, backend := i.backends } }
      else none
  | .acknowledge message => i.holder.map fun holder => i.acknowledge message holder now
  | .see report _ => i.holder.map fun holder => i.see report holder now
  | .store => i.holder.bind fun holder => i.store holder now
  | .release => i.holder.bind fun holder =>
      if holder.written.items = [] ∧ holder.reported.items = [] then some { i with holder := none } else none

/-- One step of a history: the clock goes on. -/
def step (i : Interface) (now : ℚ) (happening : Happening) : Option Interface :=
  if i.clock < now then (i.happen now happening).map fun i => { i with clock := now } else none

/-- A history. -/
def history (i : Interface) : List (ℚ × Happening) → Option Interface
  | [] => some i
  | (now, happening) :: rest => (i.step now happening).bind fun i => i.history rest

/-- What status says. -/
def status (config : Config) (i : Interface) : Except Fault PlaybackInfo :=
  playbackState config (readJournals i.journals) (readJournals i.records)
    (if i.running then some i.started else none)

end Interface

end OscmixDesk
