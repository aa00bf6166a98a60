/-
**Which interface a desk is for** (`discovery.py`).

The kernel lists its sequencer clients and its cards in two text files, and a client's name is chosen by
whoever opens the sequencer. The files are read with `re`, and a desk is bound to the one client and the one
serial that they leave, or to none, or is refused.

`str.isalnum` of a character outside ASCII is a parameter.
-/

import Mathlib.Data.List.Sort
import OscmixDesk.Foundation.Patterns
import OscmixDesk.Foundation.Text

namespace OscmixDesk.Discovery

open Patterns Text

/-! ### The patterns -/

/-- `\d`. -/
def isDecimal (c : Char) : Bool :=
  (digitValue c).isSome

/-- `\w`. -/
def isWord (alnum : Char → Bool) (c : Char) : Bool :=
  if c.toNat < 128 then c.isAlphanum || c == '_' else alnum c

/-- `\s+` and `\s*`. -/
def blanks (least : ℕ) : Piece :=
  { item := .many isSpace least false }

/-- `(\d+)`. -/
def number : Piece :=
  { item := .many isDecimal 1 false, group := true }

/-- `\((\d{4,})\)`. -/
def serialRe : List Piece :=
  literal ['('] ++ [{ item := .many isDecimal 4 false, group := true }] ++ literal [')']

/-- `^Client\s+(\d+)\s*:`. -/
def clientNumberRe : List Piece :=
  [{ item := .lineStart }] ++ literal ['C', 'l', 'i', 'e', 'n', 't'] ++ [blanks 1, number, blanks 0]
    ++ literal [':']

/-- `^Client\s+(\d+)\s*:\s*"(.*)"\s*\[(\w+)[^\]\n]*\]\s*$`. -/
def clientLineRe (alnum : Char → Bool) : List Piece :=
  clientNumberRe ++ [blanks 0] ++ literal ['"']
    ++ [{ item := .many (· != '\n') 0 false, group := true }] ++ literal ['"'] ++ [blanks 0] ++ literal ['[']
    ++ [{ item := .many (isWord alnum) 1 false, group := true },
      { item := .many (fun c => c != ']' && c != '\n') 0 false }]
    ++ literal [']'] ++ [blanks 0, { item := .lineEnd }]

/-- `^\s*\d+\s+\[[^\]]*\]:\s*\S+\s+-\s+(.*?)\s*$`. -/
def cardLineRe : List Piece :=
  [{ item := .lineStart }, blanks 0, { item := .many isDecimal 1 false }, blanks 1] ++ literal ['[']
    ++ [{ item := .many (· != ']') 0 false }] ++ literal [']', ':']
    ++ [blanks 0, { item := .many (fun c => !isSpace c) 1 false }, blanks 1] ++ literal ['-']
    ++ [blanks 1, { item := .many (· != '\n') 0 true, group := true }, blanks 0, { item := .lineEnd }]

/-! ### The two lists -/

/-- Why no interface is chosen; each carries what its message names. -/
inductive DeviceAmbiguous
  /-- "sequencer client … is listed more than once in /proc/asound/seq/clients". -/
  | repeated (numbers : List ℕ)
  /-- "… interfaces match … and [device] serial does not say which one this desk is for: … (client …)". -/
  | clients (deviceName : List Char) (found : List (ℕ × List Char))
  /-- "… interfaces match … (…) and [device] serial does not say which one this desk is for". -/
  | cards (deviceName : List Char) (serials : List (List Char))
  deriving DecidableEq, Repr

/-- The serial in a device name. -/
def serialIn (name : List Char) : Option (List Char) :=
  (findall serialRe name).head?.bind List.head?

/-- `int` of what a pattern found. -/
def int (digits : List Char) : ℕ :=
  ((readInt digits).getD 0).toNat

/-- The clients the kernel lists as its own; a number that begins two lines was forged. -/
def kernelClients (alnum : Char → Bool) (text : List Char) :
    Except DeviceAmbiguous (List (ℕ × List Char)) :=
  let numbers := (findall clientNumberRe text).map fun groups => int groups.flatten
  let repeated := ((numbers.filter fun n => 1 < numbers.count n).dedup).insertionSort (· ≤ ·)
  if repeated ≠ [] then throw (.repeated repeated)
  else return (findall (clientLineRe alnum) text).filterMap fun groups =>
    match groups with
    | [number, name, kind] => if kind = ['K', 'e', 'r', 'n', 'e', 'l'] then some (int number, name) else none
    | _ => none

/-- The product name of every card the kernel lists. -/
def cardProducts (text : List Char) : List (List Char) :=
  (findall cardLineRe text).map List.flatten

/-! ### Matching names -/

/-- A device name without its serial. -/
def model (name : List Char) : List Char :=
  strip (remove serialRe name)

/-- `name == device_name or _model(name) == device_name`. -/
def isExactly (deviceName name : List Char) : Bool :=
  name == deviceName || model name == deviceName

/-- `device_name in name`. -/
def contains (deviceName name : List Char) : Bool :=
  name.tails.any deviceName.isPrefixOf

/-- The indices of the names of which something is so. -/
def indices (accepts : List Char → Bool) (names : List (List Char)) : List ℕ :=
  (List.range names.length).filter fun i => names[i]?.any accepts

/-- The indices of the names that are the device's, exactly if any are. -/
def named (names : List (List Char)) (deviceName : List Char) : List ℕ :=
  if indices (isExactly deviceName) names ≠ [] then indices (isExactly deviceName) names
  else indices (contains deviceName) names

/-- `clients[i]` for each index. -/
def pick {α : Type} (entries : List α) (chosen : List ℕ) : List α :=
  chosen.filterMap fun i => entries[i]?

/-- The one sequencer client a desk is for. -/
def selectSeqClient (alnum : Char → Bool) (text deviceName serial : List Char)
    (cards : Option (List (List Char))) : Except DeviceAmbiguous (Option ℕ) := do
  let listed ← kernelClients alnum text
  let clients := listed.filter fun client => cards.all fun cards => decide (client.2 ∈ cards)
  let clients := pick clients (named (clients.map Prod.snd) deviceName)
  let found := clients.filter fun client => serial.isEmpty || serialIn client.2 == some serial
  if 1 < found.length then throw (.clients deviceName found)
  else return found.head?.map Prod.fst

/-- Every serial the card list shows for a device, once each. -/
def deviceSerials (products : List (List Char)) (deviceName : List Char) : List (List Char) :=
  (pick products (named products deviceName)).foldl (fun found product =>
    match serialIn product with
    | none => found
    | some serial => if serial.isEmpty || decide (serial ∈ found) then found else found ++ [serial]) []

/-- The one interface a process is for. -/
structure Device where
  usbId : List Char
  serial : List Char
  client : Option ℕ
  deriving DecidableEq, Repr

/-- The serial in the name of the client that is bound, where none is configured. -/
def boundSerial (listed : List (ℕ × List Char)) (serial : List Char) : Option ℕ → List Char
  | some number =>
      if serial.isEmpty then ((listed.reverse.lookup number).bind serialIn).getD [] else serial
  | none => serial

/-- Which interface a desk is for, from its configuration and the two files; `none` is one that cannot be
read. -/
def resolveDevice (alnum : Char → Bool) (usbId deviceName serial : List Char)
    (clientsFile cardsFile : Option (List Char)) : Except DeviceAmbiguous Device := do
  let text := clientsFile.getD []
  let client ← selectSeqClient alnum text deviceName serial (cardsFile.map cardProducts)
  let cards := deviceSerials ((cardsFile.map cardProducts).getD []) deviceName
  if serial.isEmpty && decide (1 < cards.length) then throw (.cards deviceName cards)
  else
    let listed ← kernelClients alnum text
    let serial := boundSerial listed serial client
    let serial := if serial.isEmpty && cards.length == 1 then cards.head?.getD [] else serial
    return ⟨usbId, serial, client⟩

end OscmixDesk.Discovery
