import Ambient.Class
import Ambient.Value

/-! Functions. Only Lua has a form for them. -/
namespace Ambient

structure Parameter where
  name : String
  type : Option TypeRef := none
  /-- Kept for callers; no dialect writes it. -/
  default : Option Value := none
  optional : Bool := false
  desc : Option String := none
deriving DecidableEq

structure Return where
  name : Option String := none
  type : Option TypeRef := none
  desc : Option String := none
deriving DecidableEq

structure Function where
  name : String
  params : List Parameter := []
  returns : List Return := []
  desc : String := ""
deriving DecidableEq

/-- The space stays where a parameter has no description. -/
def Parameter.annotation (p : Parameter) : String :=
  "---@param " ++ p.name ++ optionalMark p.optional ++ " " ++ TypeRef.spellingOrAny p.type .lua ++
    " " ++ (p.desc.map Doc.flatten).getD ""

def Return.annotation (r : Return) : String :=
  "---@return " ++ TypeRef.spellingOrAny r.type .lua ++ (r.name.map (" " ++ ·)).getD "" ++
    (r.desc.map (" # " ++ Doc.flatten ·)).getD ""

namespace Function

def validate (f : Function) : Except Error Unit := do
  requireName .func f.name
  requireItems .param (.func f.name) (f.params.map Parameter.name)

def inLua (d : Dialect) (text : String) : Except Error String :=
  match d with
  | .lua => .ok text
  | .typeScript => .error (.notImplemented .func d)

def endLines (ls : List String) : String := String.join (ls.map (· ++ "\n"))

def luaParams (f : Function) : String := ", ".intercalate (f.params.map Parameter.name)

def luaParamAnnotations (f : Function) : String := endLines (f.params.map Parameter.annotation)

def luaReturnAnnotations (f : Function) : String := endLines (f.returns.map Return.annotation)

/-- The names between the parentheses. -/
def paramList (f : Function) (d : Dialect) : Except Error String := inLua d f.luaParams

def paramAnnotations (f : Function) (d : Dialect) : Except Error String :=
  inLua d f.luaParamAnnotations

def returnAnnotations (f : Function) (d : Dialect) : Except Error String :=
  inLua d f.luaReturnAnnotations

def render (f : Function) (d : Dialect) : Except Error String :=
  inLua d (f.luaParamAnnotations ++ f.luaReturnAnnotations ++ "function " ++ f.name ++ "(" ++
    f.luaParams ++ ") end")

def equalParameter (p q : Parameter) : Bool :=
  p.name = q.name && p.type = q.type && Value.equalOption p.default q.default &&
    p.optional = q.optional && p.desc = q.desc

/-- Equality with values compared as values. -/
def equal (f g : Function) : Bool :=
  f.name = g.name && f.returns = g.returns && f.desc = g.desc &&
    f.params.length = g.params.length && (f.params.zip g.params).all fun p => equalParameter p.1 p.2

end Function
end Ambient
