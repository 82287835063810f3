import Ambient.DataType
import Ambient.Name
import Ambient.Writer

/-! Classes: named shapes with typed fields. -/
namespace Ambient

structure Field where
  name : String
  type : Option TypeRef := none
  optional : Bool := false
  desc : Option String := none
deriving DecidableEq

structure Class where
  name : String
  parent : Option String := none
  fields : List Field := []
  desc : String := ""
deriving DecidableEq

/-- The mark behind a name that may be left out. -/
def optionalMark (optional : Bool) : String := if optional then "?" else ""

/-- The steps for a description that may be missing; an empty one is still written. -/
def docSteps (d : Dialect) : Option String → List Writer.Step
  | some text => [.doc d text]
  | none => []

namespace Field

/-- A description behind a field keeps to its line. -/
def annotation (f : Field) : String :=
  "---@field " ++ f.name ++ optionalMark f.optional ++ " " ++ TypeRef.spellingOrAny f.type .lua ++
    match f.desc with
    | some text => " " ++ Doc.flatten text
    | none => ""

def declaration (f : Field) : String :=
  f.name ++ optionalMark f.optional ++ ": " ++ TypeRef.spellingOrAny f.type .typeScript ++ ";"

end Field

namespace Class

def validate (c : Class) : Except Error Unit := do
  requireName .cls c.name
  requireItems .field (.cls c.name) (c.fields.map Field.name)

/-- What stands between the name and the parent's name. -/
def parentClause (link : String) : Option String → String
  | some p => link ++ p
  | none => ""

def luaSteps (c : Class) : List Writer.Step :=
  .line ("---@class " ++ c.name ++ parentClause " : " c.parent) ::
    c.fields.map (fun f => .line f.annotation) ++ [.line (c.name ++ " = \x7b\x7d")]

def typeScriptHeader (c : Class) (scope : Scope) : String :=
  scope.declare ++ "class " ++ c.name ++ parentClause " extends " c.parent ++ " \x7b"

def typeScriptSteps (c : Class) (scope : Scope) : List Writer.Step :=
  match c.fields with
  | [] => [.line (c.typeScriptHeader scope ++ "\x7d")]
  | fields =>
    [.line (c.typeScriptHeader scope), .indent] ++
      fields.flatMap (fun f => docSteps .typeScript f.desc ++ [.line f.declaration]) ++
      [.dedent, .line "\x7d"]

def steps (c : Class) (d : Dialect) (scope : Scope) : List Writer.Step :=
  .docIf d c.desc :: match d with
    | .lua => c.luaSteps
    | .typeScript => c.typeScriptSteps scope

def render (c : Class) (d : Dialect) (scope : Scope) : String := Writer.render d (c.steps d scope)

end Class
end Ambient
