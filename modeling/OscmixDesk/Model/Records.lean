/-
**The files of the journals** (`journal.py`, `seen.py`).

A journal holds the last acknowledged write of every register, a record the last noted reports and the last
connect check. Both are JSON documents, read with suspicion: one row out of shape and the whole file is ignored.
What `json.loads` makes of a file is a `Json`, and `json.dump` writes a document that is read as itself; how many
bytes it takes, and what a time is as text, are parameters.
-/

import Mathlib.Data.List.Sort
import OscmixDesk.Foundation.Keyed
import OscmixDesk.Foundation.Text
import OscmixDesk.Model.Numeric
import OscmixDesk.Model.Osc

namespace OscmixDesk.Records

/-! ### Documents -/

/-- A JSON value. The pairs of an object are in the order of the text. -/
inductive Json
  | null
  | bool (value : Bool)
  | int (number : ℤ)
  | float (number : PyFloat)
  | str (text : String)
  | list (items : List Json)
  | object (pairs : List (String × Json))

/-- The `dict` an object is read as: of two values of a name the later one. -/
def dict (pairs : List (String × Json)) : Keyed (Prod.fst : String × Json → String) :=
  Keyed.ofList pairs

/-- `data.get(name)`. -/
def get (pairs : List (String × Json)) (name : String) : Option Json :=
  ((dict pairs).get? name).map Prod.snd

mutual

/-- Whether `json.dump` writes a document without `allow_nan`. -/
def Json.writable : Json → Bool
  | .float (.finite _) => true
  | .float _ => false
  | .list items => writableItems items
  | .object pairs => writablePairs pairs
  | _ => true

def writableItems : List Json → Bool
  | [] => true
  | item :: items => item.writable && writableItems items

def writablePairs : List (String × Json) → Bool
  | [] => true
  | (_, value) :: pairs => value.writable && writablePairs pairs

end

/-! ### Entries -/

/-- A register, its type tags and arguments, and when. -/
structure Entry where
  name : String
  tags : String
  args : Args
  stamp : String
  deriving DecidableEq, Repr

/-- The entries of a file. -/
abbrev Entries := Keyed Entry.name

/-- What reading raises: a `ValueError`, which reading a file turns into an empty record, or an
`OverflowError`, which it does not. -/
inductive ReadProblem
  | value
  | overflow
  deriving DecidableEq, Repr

def schema : ℤ := 1
def maxEntries : ℕ := 20000
def maxBytes : ℕ := 8 * 1024 * 1024

/-- The name of a float that JSON lacks: `repr(value)`. -/
def nameOf : PyFloat → String
  | .infinite false => "inf"
  | .infinite true => "-inf"
  | _ => "nan"

/-- A value as JSON. -/
def jsonOf : Value → Json
  | .int number => .int number
  | .float number => .float number
  | .str text => .str text

/-- One argument under its tag. -/
def encodeValue (tag : Char) (value : Value) : Json :=
  match value with
  | .float (.finite number) => .float (.finite number)
  | .float number => if tag = 'f' then .str (nameOf number) else .float number
  | value => jsonOf value

/-- JSON values for the arguments; non-finite floats as their names. -/
def encode (tags : String) (args : Args) : List Json :=
  tags.toList.zipWith encodeValue args

/-- An integer as a float; one past the range of floats is an `OverflowError`. -/
def asFloat : PyFloat → Except ReadProblem Value
  | .finite number => .ok (.float (.finite number))
  | _ => .error .overflow

/-- One argument that should be of its tag. -/
def decodeValue (tag : Char) (value : Json) : Except ReadProblem Value :=
  if tag = 'f' then
    match value with
    | .int number => asFloat (binary64 number)
    | .float number => .ok (.float number)
    | .str text =>
        match Text.readFloat text.toList with
        | some number => .ok (.float number)
        | none => .error .value
    | _ => .error .value
  else
    match value with
    | .int number => if tag = 'i' then .ok (.int number) else .error .value
    | .str text => if tag = 's' then .ok (.str text) else .error .value
    | _ => .error .value

def decodeValues : List Char → List Json → Except ReadProblem Args
  | tag :: tags, value :: values => do
      let first ← decodeValue tag value
      return first :: (← decodeValues tags values)
  | _, _ => return []

/-- The tags and arguments of a row: as many values as tags, and some of them. -/
def decode (tags values : Option Json) : Except ReadProblem (String × Args) :=
  match tags, values with
  | some (.str tags), some (.list values) =>
      if tags.toList.length ≠ values.length ∨ tags = "" then .error .value
      else do return (tags, ← decodeValues tags.toList values)
  | _, _ => .error .value

/-- One row of a table, whose names have to be `admissible`. -/
def parseRow (admissible : String → Bool) (row : String × Json) : Except ReadProblem Entry :=
  match row with
  | (name, .object fields) =>
      match get fields "at" with
      | some (.str stamp) =>
          if admissible name then do
            let (tags, args) ← decode (get fields "tags") (get fields "args")
            return ⟨name, tags, args, stamp⟩
          else .error .value
      | _ => .error .value
  | _ => .error .value

/-- The rows of a table. -/
def parseRows (admissible : String → Bool) (table : List (String × Json)) : Except ReadProblem Entries := do
  return Keyed.ofList (← (dict table).items.mapM (parseRow admissible))

/-- The row of an entry. -/
def rowOf (entry : Entry) : String × Json :=
  (entry.name, .object [("tags", .str entry.tags), ("args", .list (encode entry.tags entry.args)),
    ("at", .str entry.stamp)])

/-- The rows of a file, by name. -/
def rowsOf (entries : Entries) : List (String × Json) :=
  (entries.items.insertionSort (fun first second => first.name ≤ second.name)).map rowOf

/-- `data.get("schema") == SCHEMA`: other numbers are equal to one too. -/
def knownSchema : Option Json → Bool
  | some (.int number) => number = schema
  | some (.float (.finite number)) => number = schema
  | some (.bool value) => value
  | _ => false

/-! ### Files -/

/-- A file as it is found: its size, and what `json.loads` makes of it. -/
structure StoredFile where
  regular : Bool
  bytes : ℕ
  content : Option Json

/-- The document of a bounded regular file. -/
def bounded (file : StoredFile) : Except ReadProblem Json :=
  if !file.regular || maxBytes < file.bytes then .error .value
  else
    match file.content with
    | some document => .ok document
    | none => .error .value

variable (length : Json → ℕ) (stamp : ℚ → String)

/-- What `_replace` leaves, where it can: the document, in a regular file. -/
def replaced (document : Json) : StoredFile where
  regular := true
  bytes := length document
  content := some document

/-! ### The journal -/

def isRegister (name : String) : Bool :=
  "/".toList.isPrefixOf name.toList

/-- A sound journal document. -/
def parseJournal (data : Json) : Except ReadProblem Entries :=
  match data with
  | .object fields =>
      if !knownSchema (get fields "schema") then .error .value
      else
        match get fields "registers" with
        | some (.object table) =>
            if maxEntries < (dict table).items.length then .error .value
            else parseRows isRegister table
        | _ => .error .value
  | _ => .error .value

/-- What a journal holds in full; a missing one holds nothing. -/
def soundJournal : Option StoredFile → Except ReadProblem Entries
  | none => .ok Keyed.empty
  | some file => do parseJournal (← bounded file)

/-- Every recorded write; empty for anything but a sound journal. -/
def readJournal (file : Option StoredFile) : Except ReadProblem Entries :=
  match soundJournal file with
  | .error .value => .ok Keyed.empty
  | other => other

/-- An acknowledged write. -/
structure Written where
  name : String
  tags : String
  args : Args
  deriving DecidableEq, Repr

/-- The write as an entry of a time. -/
def Written.entry (now : String) (write : Written) : Entry :=
  ⟨write.name, write.tags, write.args, now⟩

def journalDocument (journal : Entries) : Json :=
  .object [("schema", .int schema), ("registers", .object (rowsOf journal))]

/-- The entries of a record with later ones. -/
def update (entries : Entries) (later : List Entry) : Entries :=
  later.foldl Keyed.put entries

/-- Adds one operation's acknowledged writes: whether they were stored, and the file. -/
def recordWritten (file : Option StoredFile) (written : Keyed Written.name) (now : ℚ) (replaces : Bool) :
    Except ReadProblem (Bool × Option StoredFile) :=
  if written.items = [] then .ok (false, file)
  else do
    let journal ← readJournal file
    let journal := update journal (written.items.map (Written.entry (stamp now)))
    if maxEntries < journal.items.length then return (false, file)
    let document := journalDocument journal
    if document.writable && replaces then return (true, some (replaced length document))
    else return (false, file)

/-! ### What desk saw -/

def noted : List String := ["/hardware/ccmix", "/hardware/ccmode"]
def checkStates : List String := ["matched", "mismatched", "incomplete"]
def maxCells : ℕ := 2000

/-- Exactly these names. -/
def hasNames (pairs : List (String × Json)) (names : List String) : Bool :=
  (dict pairs).keys.all names.contains && names.all fun name => (get pairs name).isSome

/-- A finite number, or the word for silence. -/
def soundLevel : Option Json → Except ReadProblem Bool
  | some (.str text) => .ok (text = "-inf")
  | some (.int number) =>
      match binary64 number with
      | .finite _ => .ok true
      | _ => .error .overflow
  | some (.float (.finite _)) => .ok true
  | _ => .ok false

def soundPan : Option Json → Bool
  | some (.int pan) => -100 ≤ pan && pan ≤ 100
  | _ => false

def soundValue : Option Json → Except ReadProblem Bool
  | some (.object pairs) =>
      if !hasNames pairs ["level_db", "pan"] then .ok false
      else do return (← soundLevel (get pairs "level_db")) && soundPan (get pairs "pan")
  | _ => .ok false

def isText : Json → Bool
  | .str _ => true
  | _ => false

def soundMismatch : Json → Except ReadProblem Bool
  | .object pairs =>
      match hasNames pairs ["route", "path", "device", "declared"], get pairs "route", get pairs "path" with
      | true, some (.str _), some (.str path) =>
          if "/mix/".toList.isPrefixOf path.toList then do
            if ← soundValue (get pairs "device") then soundValue (get pairs "declared") else return false
          else .ok false
      | _, _, _ => .ok false
  | _ => .ok false

/-- A list of a connect check. -/
def cells (pairs : List (String × Json)) (name : String) : Option (List Json) :=
  match get pairs name with
  | some (.list items) => if maxCells < items.length then none else some items
  | _ => none

/-- Whether a stored connect check has the shape `connectcheck` writes. -/
def soundCheck : Json → Except ReadProblem Bool
  | .object pairs =>
      match get pairs "at", get pairs "state", get pairs "compared" with
      | some (.str _), some (.str state), some (.int _) =>
          if !checkStates.contains state then .ok false
          else
            match cells pairs "mismatched", cells pairs "unreported", cells pairs "invalid" with
            | some mismatched, some unreported, some invalid => do
                return (← mismatched.allM soundMismatch) && (unreported ++ invalid).all isText
            | _, _, _ => .ok false
      | _, _, _ => .ok false
  | _ => .ok false

/-- The CC reports and the connect check of one record. -/
structure Seen where
  reports : Entries
  connect : Option Json

def isNoted (name : String) : Bool :=
  noted.contains name

/-- The connect check of a record, if it has a sound one or none. -/
def parseConnect : Option Json → Except ReadProblem (Option Json)
  | none | some .null => .ok none
  | some check => do if ← soundCheck check then return some check else throw .value

/-- A sound record. -/
def parseSeen (data : Json) : Except ReadProblem Seen :=
  match data with
  | .object fields =>
      if !knownSchema (get fields "schema") then .error .value
      else
        match get fields "reports" with
        | some (.object table) => do
            let reports ← parseRows isNoted table
            return ⟨reports, ← parseConnect (get fields "connect")⟩
        | _ => .error .value
  | _ => .error .value

/-- What a record holds in full; a missing one holds nothing. -/
def soundSeen : Option StoredFile → Except ReadProblem Seen
  | none => .ok ⟨Keyed.empty, none⟩
  | some file => do parseSeen (← bounded file)

/-- One user's record; empty for anything but a sound one. -/
def readSeen (file : Option StoredFile) : Except ReadProblem Seen :=
  match soundSeen file with
  | .error .value => .ok ⟨Keyed.empty, none⟩
  | other => other

/-- A report, and when it was seen. -/
structure Sighting where
  name : String
  tags : String
  args : Args
  time : ℚ
  deriving DecidableEq, Repr

/-- The binary32 of a pattern. -/
def floatOf (pattern : BitVec 32) : PyFloat :=
  let negative := decide (2 ^ 31 ≤ pattern.toNat)
  let exponent : ℕ := pattern.toNat / 2 ^ 23 % 2 ^ 8
  let fraction : ℕ := pattern.toNat % 2 ^ 23
  if exponent = 255 then if fraction = 0 then .infinite negative else .nan
  else
    let magnitude : ℚ :=
      if exponent = 0 then (fraction : ℚ) / 2 ^ 149
      else ((2 ^ 23 + fraction : ℕ) : ℚ) * 2 ^ exponent / 2 ^ 150
    .finite (if negative then -magnitude else magnitude)

def valueOf : Osc.Argument → Value
  | .int number => .int number
  | .float pattern => .float (floatOf pattern)
  | .str text => .str text

/-- A decoded message, seen at a time. -/
def sightingOf (packet : Osc.Packet) (time : ℚ) : Sighting :=
  ⟨packet.path, packet.tags, packet.args.map valueOf, time⟩

def Sighting.entry (sighting : Sighting) : Entry :=
  ⟨sighting.name, sighting.tags, sighting.args, stamp sighting.time⟩

def seenDocument (seen : Seen) : Json :=
  .object [("schema", .int schema), ("reports", .object (rowsOf seen.reports)),
    ("connect", seen.connect.getD .null)]

/-- The record with one operation's reports, and its connect check where there is one. -/
def updateSeen (seen : Seen) (kept : List Sighting) (connect : Option Json) : Seen where
  reports := update seen.reports (kept.map (Sighting.entry stamp))
  connect := connect.or seen.connect

/-- Adds one operation's CC reports and connect check: whether they were stored, and the file. -/
def recordSeen (file : Option StoredFile) (reports : Keyed Sighting.name) (connect : Option Json)
    (replaces : Bool) : Except ReadProblem (Bool × Option StoredFile) :=
  let kept := reports.items.filter fun sighting => isNoted sighting.name
  if kept.isEmpty && connect.isNone then .ok (false, file)
  else do
    let current ← readSeen file
    let document := seenDocument (updateSeen stamp current kept connect)
    if document.writable && replaces then return (true, some (replaced length document))
    else return (false, file)

end OscmixDesk.Records
