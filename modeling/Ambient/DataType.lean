import Ambient.Dialect

/-! Built-in data types and references to types. -/
namespace Ambient

/-- Bits of a fixed-width integer. -/
inductive Width
  | w8 | w16 | w32 | w64 | w128 | w256
deriving DecidableEq, Repr

namespace Width

def all : List Width := [.w8, .w16, .w32, .w64, .w128, .w256]

def text : Width → String
  | .w8 => "8"
  | .w16 => "16"
  | .w32 => "32"
  | .w64 => "64"
  | .w128 => "128"
  | .w256 => "256"

/-- Whether a double holds every integer of this width. -/
def fitsDouble : Width → Bool
  | .w8 | .w16 | .w32 => true
  | _ => false

end Width

inductive DataType
  | char
  | string
  | integer (signed : Bool) (width : Width)
  | float
  | number
  | double
  | null
  | nil
  | void
  | any
  | function
deriving DecidableEq, Repr

namespace DataType

def all : List DataType :=
  [.char, .string] ++ Width.all.map (.integer false) ++ Width.all.map (.integer true) ++
    [.float, .number, .double, .null, .nil, .void, .any, .function]

/-- The name of a type in every dialect's input. -/
def name : DataType → String
  | .char => "char"
  | .string => "string"
  | .integer signed width => (if signed then "int" else "uint") ++ width.text
  | .float => "float"
  | .number => "number"
  | .double => "double"
  | .null => "null"
  | .nil => "nil"
  | .void => "void"
  | .any => "any"
  | .function => "function"

def isInteger : DataType → Bool
  | .integer .. => true
  | _ => false

/-- How a dialect spells the type. -/
def spelling : DataType → Dialect → String
  | .char, _ | .string, _ => "string"
  | .integer .., .lua => "integer"
  | .integer _ width, .typeScript => if width.fitsDouble then "number" else "bigint"
  | .float, _ | .number, _ | .double, _ => "number"
  | .null, .lua | .nil, .lua | .void, .lua => "nil"
  | .null, .typeScript | .nil, .typeScript => "null"
  | .void, .typeScript => "void"
  | .any, _ => "any"
  | .function, .lua => "function"
  | .function, .typeScript => "Function"

def ofName? (s : String) : Option DataType := all.find? (·.name == s)

/-- The place of a type in the list of all types. -/
def index (t : DataType) : Nat := all.idxOf t

theorem ofName?_name (t : DataType) : ofName? t.name = some t := by
  cases t with
  | integer signed width => cases signed <;> cases width <;> decide +kernel
  | _ => decide +kernel

/-- What is said of a name that no data type has. -/
def unknownMessage (s : String) : String := "unknown data type '" ++ s ++ "'"

end DataType

/-- A type as a declaration mentions it: by a name kept as it stands, or one of the built-in types. -/
inductive TypeRef
  | named (name : String)
  | builtin (type : DataType)
deriving DecidableEq, Repr

namespace TypeRef

/-- The type of what has none written. -/
def any : TypeRef := .builtin .any

def name : TypeRef → String
  | .named s => s
  | .builtin t => t.name

def spelling : TypeRef → Dialect → String
  | .named s, _ => s
  | .builtin t, d => t.spelling d

/-- The spelling of a type that may be left out. -/
def spellingOrAny (t : Option TypeRef) (d : Dialect) : String := (t.getD any).spelling d

end TypeRef
end Ambient
