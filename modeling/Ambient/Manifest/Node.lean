import Ambient.Manifest.Problem

/-!
Documents as trees. A text with a fault has a tree too, cut off at the fault, so that a reader that
visits the tree in the order of the text meets the fault where a reader of the text would.
-/
namespace Ambient.Manifest

/-- What a broken value had begun as. -/
inductive Beginning
  | nothing
  | text
  | null
  | scalar
deriving DecidableEq

inductive Key
  | named (name : String)
  /-- Something else in the place of a key; the problem is that of a reader who wants a key. -/
  | odd (problem : Problem)
deriving DecidableEq

mutual

inductive Node
  | null
  | boolean (b : Bool)
  | integer (n : Int)
  | float (x : Binary64)
  /-- Written like an integer, but no integer of 128 bits is its value. -/
  | noInteger
  /-- A fraction or power too large for any number. -/
  | hugeFloat
  | text (s : String)
  | datetime
  /-- Items, and the problem that stands in the place of the end. -/
  | sequence (items : List Node) (closing : Option Problem)
  | table (entries : List Entry) (closing : Option Problem)
  | broken (began : Beginning) (problem : Problem)

inductive Entry
  | mk (key : Key) (value : Node)

end

namespace Node

/-- What is said of a node of the wrong type. -/
def found : Node → Except Problem Found
  | .null => .ok .null
  | .boolean b => .ok (.boolean b)
  | .integer n => .ok (.integer n)
  | .float x => .ok (.float x)
  | .noInteger => .error (.data .integerOverflow)
  | .hugeFloat => .error (.data .floatOverflow)
  | .text s => .ok (.text s)
  | .datetime | .table .. => .ok .map
  | .sequence .. => .ok .sequence
  | .broken _ p => .error p

/-- The problem with a node that is not of the wanted type. -/
def mismatch (n : Node) (wanted : String) : Problem :=
  match n.found with
  | .ok f => .data (.invalidType f wanted)
  | .error p => p

/-- A datetime reads as a table with one key of its own. -/
def datetimeKey : String := "$__toml_private_datetime"

mutual

/-- The first problem with the node or inside it, in the order of the text. -/
def problem? : Node → Option Problem
  | .integer n => if isWordInteger n then none else some ((Node.integer n).mismatch "any value")
  | .noInteger => some (.data .integerOverflow)
  | .hugeFloat => some (.data .floatOverflow)
  | .sequence items closing => (itemsProblem? items).or closing
  | .table entries closing => (entriesProblem? entries).or closing
  | .broken _ p => some p
  | .null | .boolean _ | .float _ | .text _ | .datetime => none

def itemsProblem? : List Node → Option Problem
  | [] => none
  | n :: ns => n.problem?.or (itemsProblem? ns)

def entriesProblem? : List Entry → Option Problem
  | [] => none
  | e :: es => (entryProblem? e).or (entriesProblem? es)

def entryProblem? : Entry → Option Problem
  | .mk (.named _) n => n.problem?
  | .mk (.odd p) _ => some p

end

end Node

/-- A document: its value, and whether something follows it that should not be there. -/
structure Document where
  root : Node
  trailing : Bool

end Ambient.Manifest
