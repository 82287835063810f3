import Ambient.DataType
import Ambient.Name
import Ambient.Value
import Ambient.Writer

/-! Variables, with or without a value. -/
namespace Ambient

structure Variable where
  name : String
  /-- Only TypeScript tells constants apart. -/
  constant : Bool := false
  value : Option Value := none
  type : TypeRef := .any
  desc : String := ""
deriving DecidableEq

namespace Variable

def validate (v : Variable) : Except Error Unit := requireName .var v.name

def keyword (v : Variable) : String := if v.constant then "const" else "let"

def lines (v : Variable) (d : Dialect) (scope : Scope) : List Writer.Step :=
  let value := Value.literalOrUnset d v.value
  match d with
  | .lua => [.line ("---@type " ++ v.type.spelling d), .line (v.name ++ " = " ++ value)]
  | .typeScript =>
    [.line (scope.declare ++ v.keyword ++ " " ++ v.name ++ ": " ++ v.type.spelling d ++ " = " ++
      value ++ ";")]

def steps (v : Variable) (d : Dialect) (scope : Scope) : List Writer.Step :=
  .docIf d v.desc :: v.lines d scope

def render (v : Variable) (d : Dialect) (scope : Scope) : String := Writer.render d (v.steps d scope)

/-- Equality with values compared as values. -/
def equal (v w : Variable) : Bool :=
  v.name = w.name && v.constant = w.constant && Value.equalOption v.value w.value &&
    v.type = w.type && v.desc = w.desc

end Variable
end Ambient
