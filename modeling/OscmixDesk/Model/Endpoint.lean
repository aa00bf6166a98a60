/-
**Who holds the control endpoint** (`process.py`).

The kernel lists the Unix sockets in a text file: a header, then a line for each socket with seven fields
and, for a named one, its name as its creator chose it. The owner of the endpoint is the process that holds
the inode of its listening socket; the table is only read.
-/

import Mathlib.Data.List.Dedup
import OscmixDesk.Foundation.Text

namespace OscmixDesk.Process

open Text

/-! ### What the kernel lists -/

/-- A field of a row: some characters, none of them blank. -/
structure Field where
  text : List Char
  some' : text ≠ []
  solid : ∀ c ∈ text, isSpace c = false

/-- The name of a socket; `binary` is one that is no text in the encoding the table is read in. -/
inductive Name
  | unnamed
  | text (name : List Char)
  | binary
  deriving DecidableEq, Repr

/-- A row of `/proc/net/unix`. -/
structure UnixSocket where
  num : Field
  refCount : Field
  protocol : Field
  flags : Field
  type : Field
  st : Field
  inode : Field
  name : Name
  number : allDigits inode.text = true

/-- What a handle of a process links to: `socket:[…]`, or a target that does not start so. -/
inductive Handle
  | socket (inode : List Char)
  | other (target : List Char)

/-- A directory of `/proc`; the handles are `none` where they cannot be read, as the target of one of them
is. -/
structure Entry where
  pid : ℕ
  handles : Option (List (Option Handle))

/-- `Num       RefCount Protocol Flags    Type St Inode Path`. -/
def header : List Char :=
  ['N', 'u', 'm', ' ', ' ', ' ', ' ', ' ', ' ', ' ', 'R', 'e', 'f', 'C', 'o', 'u', 'n', 't', ' ',
    'P', 'r', 'o', 't', 'o', 'c', 'o', 'l', ' ', 'F', 'l', 'a', 'g', 's', ' ', ' ', ' ', ' ',
    'T', 'y', 'p', 'e', ' ', 'S', 't', ' ', 'I', 'n', 'o', 'd', 'e', ' ', 'P', 'a', 't', 'h']

/-- `"%pK: %08X %08X %08X %04X %02X %5lu"`; the first field carries its colon. -/
def UnixSocket.fields (socket : UnixSocket) : List Char :=
  socket.num.text ++ ' ' :: socket.refCount.text ++ ' ' :: socket.protocol.text ++ ' ' :: socket.flags.text
    ++ ' ' :: socket.type.text ++ ' ' :: socket.st.text ++ ' ' :: List.replicate (5 - socket.inode.text.length) ' '
    ++ socket.inode.text

/-- A row without its line break; `none` where the name is no text. -/
def UnixSocket.row (socket : UnixSocket) : Option (List Char) :=
  match socket.name with
  | .unnamed => some socket.fields
  | .text name => some (socket.fields ++ ' ' :: name)
  | .binary => none

/-- The table as it is decoded; the text of the names is decoded with it. -/
def renderTable (table : List UnixSocket) : Option (List Char) :=
  (table.mapM UnixSocket.row).map fun rows => header ++ '\n' :: rows.flatMap (· ++ ['\n'])

/-! ### Reading it -/

/-- Why the table cannot be read. -/
inductive Unreadable
  | decode
  | header
  | row
  | inode
  | several
  | owners
  deriving DecidableEq, Repr

/-- What reading a text makes of its line breaks. -/
def newlines : List Char → List Char
  | [] => []
  | '\r' :: '\n' :: rest => '\n' :: newlines rest
  | '\r' :: rest => '\n' :: newlines rest
  | c :: rest => c :: newlines rest

/-- Where `str.splitlines` breaks. -/
def isBreak (c : Char) : Bool :=
  let n := c.toNat
  (10 ≤ n && n ≤ 13) || (28 ≤ n && n ≤ 30) || n == 0x85 || n == 0x2028 || n == 0x2029

/-- `str.splitlines`, of a text without `\r`. -/
def splitlines : List Char → List (List Char)
  | [] => []
  | c :: rest =>
      if isBreak c then [] :: splitlines rest
      else
        match splitlines rest with
        | [] => [[c]]
        | line :: lines => (c :: line) :: lines

/-- `str.split(maxsplit=most)`. -/
def splitBlanks : ℕ → List Char → List (List Char)
  | 0, text => if (text.dropWhile isSpace).isEmpty then [] else [text.dropWhile isSpace]
  | most + 1, text =>
      if (text.dropWhile isSpace).isEmpty then []
      else (text.dropWhile isSpace).takeWhile (!isSpace ·)
        :: splitBlanks most ((text.dropWhile isSpace).dropWhile (!isSpace ·))

/-- `["Num", "RefCount", "Protocol", "Flags", "Type", "St", "Inode"]`. -/
def columnNames : List (List Char) :=
  [['N', 'u', 'm'], ['R', 'e', 'f', 'C', 'o', 'u', 'n', 't'], ['P', 'r', 'o', 't', 'o', 'c', 'o', 'l'],
    ['F', 'l', 'a', 'g', 's'], ['T', 'y', 'p', 'e'], ['S', 't'], ['I', 'n', 'o', 'd', 'e']]

/-- `["00010000", "0005", "01"]`: listening, SEQPACKET, unconnected. -/
def listening : List (List Char) :=
  [['0', '0', '0', '1', '0', '0', '0', '0'], ['0', '0', '0', '5'], ['0', '1']]

/-- The inode of a line that is a listening row of the endpoint. -/
def readRow (path line : List Char) : Except Unreadable (Option (List Char)) :=
  let fields := splitBlanks 7 line
  if fields.length < 7 then throw .row
  else if fields.length = 8 ∧ fields[7]? = some path ∧ (fields.drop 3).take 3 = listening then
    if !allDigits (fields[6]?.getD []) then throw .inode else return fields[6]?
  else return none

/-- `target.startswith("socket:[") and target[8:-1] in inodes`, of a target that can be read. -/
def Handle.among (inodes : List (List Char)) : Handle → Bool
  | .socket inode => inodes.any (· == inode)
  | .other _ => false

/-- Whether one of its handles is a socket of the inodes. -/
def Entry.holdsAny (entry : Entry) (inodes : List (List Char)) : Bool :=
  entry.handles.any fun handles => handles.any fun handle => handle.any (·.among inodes)

/-- `_owner_of_sockets`. -/
def ownerOfSockets (inodes : List (List Char)) (entries : List Entry) : Except Unreadable (Option ℕ) :=
  if inodes = [] then return none
  else
    let owners := ((entries.filter (·.holdsAny inodes)).map Entry.pid).dedup
    if 1 < owners.length then throw .owners else return owners.head?

/-- The inodes that the decoded table says are listening at the path: one, or none. -/
def listeningInodes (path : List Char) (file : Option (List Char)) : Except Unreadable (List (List Char)) := do
  let text ← file.elim (throw .decode) pure
  match splitlines (newlines text) with
  | [] => throw .header
  | first :: lines =>
      if (splitBlanks first.length first).take 7 ≠ columnNames then throw .header
      else
        let rows ← lines.mapM (readRow path)
        let inodes := (rows.filterMap id).dedup
        if 1 < inodes.length then throw .several else return inodes

/-- The process that holds the endpoint's listening socket, from the decoded table and the processes. -/
def controlSocketOwner (path : List Char) (file : Option (List Char)) (entries : List Entry) :
    Except Unreadable (Option ℕ) := do
  let inodes ← listeningInodes path file
  ownerOfSockets inodes entries

end OscmixDesk.Process
