import Ambient.Manifest.Node

/-!
Tables while a document is read. Each remembers how it came about, which decides how it may still
grow; entries are kept in the order of their keys.
-/
namespace Ambient.Manifest.Toml

/-- How a table came about. -/
inductive Origin
  /-- The root, a table with a header of its own, or a table in braces. -/
  | defined
  /-- On the way to a table with a header. -/
  | path
  /-- By a dotted key. -/
  | dotted
deriving DecidableEq

inductive Item
  | value (n : Node)
  | table (origin : Origin) (entries : List (String × Item))
  /-- Tables under one repeated header, the last one first. -/
  | tables (items : List (List (String × Item)))

abbrev Entries := List (String × Item)

/-- The item of a key. -/
def lookup (key : String) (entries : Entries) : Option Item := entries.lookup key

/-- Puts an item under a key, in the place of the one already there or in the order of the keys. -/
def put (key : String) (item : Item) : Entries → Entries
  | [] => [(key, item)]
  | e :: es =>
    if key = e.1 then (key, item) :: es
    else if key < e.1 then (key, item) :: e :: es
    else e :: put key item es

/-- Changes the table at the end of a path; tables on the way are made as needed. -/
def within (made : Origin) (change : Origin → Entries → Option Entries) :
    List String → Origin → Entries → Option Entries
  | [], origin, entries => change origin entries
  | key :: path, _, entries =>
    match lookup key entries with
    | none => (within made change path made []).map fun es => put key (.table made es) entries
    | some (.table origin es) =>
      if made = .dotted && origin = .defined then none
      else (within made change path origin es).map fun es => put key (.table origin es) entries
    | some (.tables (es :: others)) =>
      (within made change path .defined es).map fun es => put key (.tables (es :: others)) entries
    | some (.tables []) | some (.value _) => none

/-- Puts a value under a new key of a table that dotted keys may extend, or only plain ones. -/
def assignIn (key : String) (value : Node) (isDotted : Bool) (origin : Origin) (entries : Entries) :
    Option Entries :=
  if decide (origin = .dotted) == isDotted && (lookup key entries).isNone then
    some (put key (.value value) entries)
  else none

/-- Puts a value under a dotted key. -/
def assign (path : List String) (key : String) (value : Node) (origin : Origin) (entries : Entries) :
    Option Entries :=
  within .dotted (assignIn key value !path.isEmpty) path origin entries

/-- How a header makes a table of its name among the entries around it. -/
abbrev MakeTable := String → Origin → Entries → Option Entries

/-- A header makes a table, unless one was made before by more than a longer header. -/
def openTable : MakeTable := fun key _ entries =>
  match lookup key entries with
  | none => some (put key (.table .defined []) entries)
  | some (.table .path es) => some (put key (.table .defined es) entries)
  | some _ => none

/-- A doubled header adds a table to those under the same header. -/
def addTable : MakeTable := fun key _ entries =>
  match lookup key entries with
  | none => some (put key (.tables [[]]) entries)
  | some (.tables items) => some (put key (.tables ([] :: items)) entries)
  | some _ => none

mutual

/-- What has been read, as a node. -/
def Item.node : Item → Node
  | .value n => n
  | .table _ entries => .table (entryNodes entries) none
  | .tables items => .sequence (tableNodes items).reverse none

def entryNodes : List (String × Item) → List Entry
  | [] => []
  | e :: es => .mk (.named e.1) e.2.node :: entryNodes es

def tableNodes : List (List (String × Item)) → List Node
  | [] => []
  | t :: ts => .table (entryNodes t) none :: tableNodes ts

end

end Ambient.Manifest.Toml
