import Ambient.Manifest.Node

/-! Reading records out of documents, by key or in the order of their fields. -/
namespace Ambient.Manifest

abbrev Reader (α : Type) := Node → Except Problem α

def readText : Reader String
  | .text s => .ok s
  | n => .error (n.mismatch "a string")

def readFlag : Reader Bool
  | .boolean b => .ok b
  | n => .error (n.mismatch "a boolean")

/-- A value that may be null. -/
def readOptional (read : Reader α) : Reader (Option α)
  | .null => .ok none
  | .broken .null p => .error p
  | n => some <$> read n

def failIf : Option Problem → Except Problem Unit
  | some p => .error p
  | none => .ok ()

def readList (read : Reader α) : Reader (List α)
  | .sequence items closing => do
    let xs ← items.mapM read
    failIf closing
    return xs
  | n => .error (n.mismatch "a sequence")

/-- A field of a record: reading its value fills it in. -/
structure Slot (σ : Type) where
  key : String
  fill : Node → σ → Except Problem σ
  required : Bool

/-- A field that may be left out. -/
def optionalSlot (key : String) (read : Reader α) (set : α → σ → σ) : Slot σ :=
  ⟨key, fun n r => (set · r) <$> read n, false⟩

def requiredSlot (key : String) (read : Reader α) (set : α → σ → σ) : Slot σ :=
  ⟨key, fun n r => (set · r) <$> read n, true⟩

structure Schema (σ : Type) where
  /-- The name of the record in messages. -/
  name : String
  /-- A record with no field read. -/
  blank : σ
  slots : List (Slot σ)

namespace Schema

def keys (s : Schema σ) : List String := s.slots.map Slot.key

def slot? (s : Schema σ) (key : String) : Option (Slot σ) := s.slots.find? (·.key == key)

/-- Reads entries in the order of the text; `seen` holds the keys before. -/
def readEntries (s : Schema σ) (closing : Option Problem) :
    List String → σ → List Entry → Except Problem (List String × σ)
  | seen, r, [] => do
    failIf closing
    return (seen, r)
  | _, _, .mk (.odd p) _ :: _ => .error p
  | seen, r, .mk (.named key) n :: es =>
    match s.slot? key with
    | none => .error (.data (.unknownField key s.keys))
    | some slot =>
      if key ∈ seen then .error (.data (.duplicateField key))
      else do readEntries s closing (key :: seen) (← slot.fill n r) es

/-- The first field that has to be there and is not. -/
def missing? (s : Schema σ) (seen : List String) : Option String :=
  (s.slots.find? fun slot => slot.required && slot.key ∉ seen).map Slot.key

def readTable (s : Schema σ) (entries : List Entry) (closing : Option Problem) :
    Except Problem σ := do
  let (seen, r) ← s.readEntries closing [] s.blank entries
  match s.missing? seen with
  | some key => .error (.data (.missingField key))
  | none => .ok r

/-- More items than fields are a fault in JSON. -/
def failIfMore (format : Format) (items : List Node) (closing : Option Problem) :
    Except Problem Unit :=
  match format, items with
  | .json, _ :: _ => .error .malformed
  | _, _ => failIf closing

def shortage (s : Schema σ) (length : Nat) : Problem :=
  .data (.tooShort length
    ("struct " ++ s.name ++ " with " ++ toString s.slots.length ++ " elements"))

/-- Reads items as fields, the first of which has this index. -/
def readItems (s : Schema σ) (format : Format) (closing : Option Problem) :
    Nat → σ → List (Slot σ) → List Node → Except Problem σ
  | _, r, [], items => do
    failIfMore format items closing
    return r
  | index, r, slot :: slots, n :: ns => do
    readItems s format closing (index + 1) (← slot.fill n r) slots ns
  | index, r, slot :: slots, [] => do
    failIf closing
    if slot.required then .error (s.shortage index)
    else readItems s format closing (index + 1) r slots []

/-- A record: a table with its fields as keys, or a sequence of their values. -/
def read (s : Schema σ) (format : Format) : Reader σ
  | .table entries closing => s.readTable entries closing
  | .datetime => s.readTable [.mk (.named Node.datetimeKey) (.text "")] none
  | .sequence items closing => s.readItems format closing 0 s.blank s.slots items
  | n => .error (n.mismatch ("struct " ++ s.name))

end Schema
end Ambient.Manifest
