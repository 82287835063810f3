import Ambient.Manifest.Toml.Scalar
import Ambient.Manifest.Toml.Table
import Ambient.Manifest.Toml.Text

/-!
Reading TOML into a tree. The whole text is read before its content is looked at, and its pieces have
to fit together before a fault inside one of them counts.
-/
namespace Ambient.Manifest.Toml

/-! Keys. -/

def isBareKeyChar (c : Char) : Bool := c.isAlphanum || c = '_' || c = '-'

def bareKey (w : List Char) : Except Problem String :=
  if w.all isBareKeyChar then .ok (String.ofList w) else .error .malformed

/-- One part of a key: bare or quoted. -/
def keyPart (cs : List Char) : Option (Reading String) :=
  match lineString? cs with
  | some r => some r
  | none =>
    let isPart (c : Char) : Bool := isWordChar c && c ≠ '.'
    let w := cs.takeWhile isPart
    if w.isEmpty then none else some (bareKey w, cs.dropWhile isPart)

/-- The parts between the points of a key. -/
def keyParts : Nat → List Char → Option (List (Except Problem String) × List Char)
  | 0, _ => none
  | fuel + 1, cs => do
    let (part, rest) ← keyPart cs
    match skipSpace rest with
    | '.' :: more => do
      let (parts, rest) ← keyParts fuel (skipSpace more)
      some (part :: parts, rest)
    | rest => some ([part], rest)

/-- A key: the names on the way to a table, and the name in it. -/
structure DottedKey where
  path : List String
  last : String

/-- The parts that a key may have. -/
def maxParts : Nat := 80

def DottedKey.ofParts (parts : List (Except Problem String)) : Except Problem DottedKey := do
  let names ← parts.mapM id
  if maxParts < names.length then .error .longKey
  else .ok ⟨names.dropLast, names.getLastD ""⟩

def key (cs : List Char) : Option (Reading DottedKey) :=
  (keyParts (cs.length + 1) cs).map fun (parts, rest) => (DottedKey.ofParts parts, rest)

/-! Values. -/

/-- Arrays and tables in braces that may be open at once. -/
def maxDepth : Nat := 80

/-- Puts a value under a key among the entries before it. -/
def addEntry (entries : Except Problem Entries) (k : Except Problem DottedKey)
    (v : Except Problem Node) : Except Problem Entries := do
  let es ← entries
  let k ← k
  orMalformed (assign k.path k.last (← v) .defined es)

mutual

/-- A value; `depth` arrays and tables may be opened in it. -/
def value : Nat → Nat → List Char → Option (Reading Node)
  | 0, _, _ => none
  | fuel + 1, depth, cs =>
    match string? cs with
    | some (s, rest) => some (s.map .text, rest)
    | none =>
      match cs, depth with
      | '[' :: _, 0 | '{' :: _, 0 => none
      | '[' :: cs, depth + 1 => do
        let (items, rest) ← array fuel depth (← skipLines false cs)
        some (items.map (.sequence · none), rest)
      | '{' :: cs, depth + 1 => do
        let (entries, rest) ← braces fuel depth (.ok []) (← skipLines false cs)
        some (entries.map fun es => .table (entryNodes es) none, rest)
      | cs, _ =>
        let (w, rest) := takeWord cs
        if w.isEmpty then none else some (orMalformed (scalar? w), rest)

/-- The items of an array up to its bracket; a comma may follow the last one. -/
def array : Nat → Nat → List Char → Option (Reading (List Node))
  | 0, _, _ => none
  | _ + 1, _, ']' :: cs => some (.ok [], cs)
  | fuel + 1, depth, cs => do
    let (item, rest) ← value fuel depth cs
    match ← skipLines false rest with
    | ',' :: cs => do
      let (items, rest) ← array fuel depth (← skipLines false cs)
      some (do return (← item) :: (← items), rest)
    | ']' :: cs => some (item.map ([·]), cs)
    | _ => none

/--
The entries of a table up to its brace; a comma may follow the last one. Lines may break between any
two parts but those of a key.
-/
def braces : Nat → Nat → Except Problem Entries → List Char → Option (Reading Entries)
  | 0, _, _, _ => none
  | _ + 1, _, entries, '}' :: cs => some (entries, cs)
  | fuel + 1, depth, entries, cs => do
    let (k, rest) ← key cs
    match ← skipLines false rest with
    | '=' :: cs => do
      let (v, rest) ← value fuel depth (← skipLines false cs)
      let entries := addEntry entries k v
      match ← skipLines false rest with
      | ',' :: cs => do braces fuel depth entries (← skipLines false cs)
      | '}' :: cs => some (entries, cs)
      | _ => none
    | _ => none

end

/-! Documents. -/

/-- A document so far: its root, and the path of the table that keys go to. -/
structure State where
  root : Entries
  current : List String

namespace State

def start : State := ⟨[], []⟩

/-- A header; the tables on the way to it need no header of their own. -/
def header (s : State) (k : DottedKey) (make : MakeTable) : Option State := do
  let root ← within .path (make k.last) k.path .defined s.root
  some ⟨root, k.path ++ [k.last]⟩

def assign (s : State) (k : DottedKey) (v : Node) : Option State := do
  let root ← within .path (Toml.assign k.path k.last v) s.current .defined s.root
  some { s with root }

end State

/-- Skips the brackets that end a header. -/
def skipClosing : List Char → List Char → Option (List Char)
  | [], cs => some cs
  | b :: bs, c :: cs => if b = c then skipClosing bs cs else none
  | _ :: _, [] => none

/-- A header from behind its opening brackets. -/
def headerLine (s : Except Problem State) (closing : List Char) (make : MakeTable)
    (cs : List Char) : Option (Reading State) := do
  let (k, rest) ← key (skipSpace cs)
  let rest ← skipClosing closing rest
  some (do orMalformed ((← s).header (← k) make), rest)

/-- A key and its value. -/
def assignment (s : Except Problem State) (cs : List Char) : Option (Reading State) := do
  let (k, rest) ← key cs
  match rest with
  | '=' :: cs => do
    let (v, rest) ← value (4 * cs.length + 4) maxDepth (skipSpace cs)
    some (do orMalformed ((← s).assign (← k) (← v)), rest)
  | _ => none

/-- The rest of a line: nothing but blanks and a comment. -/
def endLine (cs : List Char) : Option (List Char) :=
  match skipSpace cs with
  | [] => some []
  | '#' :: cs => skipLines true cs
  | cs => lineBreak? cs

def statement (s : Except Problem State) : List Char → Option (Reading State)
  | '[' :: '[' :: cs => headerLine s [']', ']'] addTable cs
  | '[' :: cs => headerLine s [']'] openTable cs
  | cs => assignment s cs

/-- The statements of a document, each on a line of its own. -/
def statements : Nat → Except Problem State → List Char → Option (Except Problem State)
  | 0, _, _ => none
  | fuel + 1, s, cs => do
    match ← skipLines false cs with
    | [] => some s
    | cs => do
      let (s, rest) ← statement s cs
      statements fuel s (← endLine rest)

/-- A mark of the byte order may open a text. -/
def dropByteOrderMark : List Char → List Char
  | '\uFEFF' :: cs => cs
  | cs => cs

def tree (text : String) : Except Problem Node := do
  let cs := dropByteOrderMark text.toList
  let s ← (statements (cs.length + 1) (.ok .start) cs).getD (.error .malformed)
  return .table (entryNodes s.root) none

/-- The document, broken as a whole if any part of it is. -/
def document (text : String) : Document :=
  match tree text with
  | .ok root => ⟨root, false⟩
  | .error p => ⟨.broken .nothing p, false⟩

end Ambient.Manifest.Toml
