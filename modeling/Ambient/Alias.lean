import Ambient.DataType
import Ambient.Name
import Ambient.Writer

/-! Names for types. -/
namespace Ambient

structure Alias where
  name : String
  type : TypeRef := .any
  desc : String := ""
deriving DecidableEq

namespace Alias

def validate (a : Alias) : Except Error Unit := requireName .alias a.name

def line (a : Alias) (d : Dialect) (scope : Scope) : String :=
  match d with
  | .lua => "---@alias " ++ a.name ++ " " ++ a.type.spelling d
  | .typeScript => scope.declare ++ "type " ++ a.name ++ " = " ++ a.type.spelling d ++ ";"

def steps (a : Alias) (d : Dialect) (scope : Scope) : List Writer.Step :=
  [.docIf d a.desc, .line (a.line d scope)]

def render (a : Alias) (d : Dialect) (scope : Scope) : String := Writer.render d (a.steps d scope)

end Alias
end Ambient
