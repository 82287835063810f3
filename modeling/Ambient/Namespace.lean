import Ambient.Enum
import Ambient.Function
import Ambient.Variable

/-!
Namespaces: members of four kinds under one name. A member that someone is changing cannot be read;
reading stops at the first such member.
-/
namespace Ambient

inductive Member
  | enum (e : Enum)
  | cls (c : Class)
  | var (v : Variable)
  | func (f : Function)
deriving DecidableEq

namespace Member

def kind : Member → Kind
  | .enum _ => .enum
  | .cls _ => .cls
  | .var _ => .var
  | .func _ => .func

def name : Member → String
  | .enum e => e.name
  | .cls c => c.name
  | .var v => v.name
  | .func f => f.name

def validate : Member → Except Error Unit
  | .enum e => e.validate
  | .cls c => c.validate
  | .var v => v.validate
  | .func f => f.validate

def render (d : Dialect) (scope : Scope) : Member → Except Error String
  | .enum e => .ok (e.render d scope)
  | .cls c => .ok (c.render d scope)
  | .var v => .ok (v.render d scope)
  | .func f => f.render d

end Member

/-- A member as its namespace finds it: free to read, or in use. -/
inductive Sight
  | free (m : Member)
  | held (kind : Kind)
deriving DecidableEq

def Sight.read (space : String) : Sight → Except Error Member
  | .free m => .ok m
  | .held kind => .error (.inUse kind space)

structure Namespace where
  name : String
  functions : List Function := []
  classes : List Class := []
  enums : List Enum := []
  vars : List Variable := []
deriving DecidableEq

namespace Namespace

/-- The members in the order in which they are checked and written. -/
def members (n : Namespace) : List Member :=
  n.enums.map .enum ++ n.classes.map .cls ++ n.vars.map .var ++ n.functions.map .func

/-- The name that a member has once it is found free and valid. -/
def checkedName (space : String) (s : Sight) : Except Error String := do
  let m ← s.read space
  m.validate
  return m.name

def validateSights (name : String) (sights : List Sight) : Except Error Unit := do
  requireName .space name
  let names ← sights.mapM (checkedName name)
  requireUnique (.space name) names

def renderedSight (space : String) (d : Dialect) (s : Sight) : Except Error String := do
  (← s.read space).render d .inNamespace

/-- Texts with a blank line between any two. -/
def separated (texts : List String) : List Writer.Step :=
  (texts.map Writer.Step.lines).intersperse .blank

def layout (name : String) (d : Dialect) (scope : Scope) (texts : List String) : List Writer.Step :=
  match d with
  | .lua => .line ("--#region " ++ name) :: separated texts ++ [.line "--#endregion"]
  | .typeScript =>
    let header := scope.declare ++ "namespace " ++ name ++ " \x7b"
    match texts with
    | [] => [.line (header ++ "\x7d")]
    | texts => [.line header, .indent] ++ separated texts ++ [.dedent, .line "\x7d"]

def renderSights (name : String) (sights : List Sight) (d : Dialect) (scope : Scope) :
    Except Error String := do
  let texts ← sights.mapM (renderedSight name d)
  return Writer.render d (layout name d scope texts)

def sights (n : Namespace) : List Sight := n.members.map .free

def validate (n : Namespace) : Except Error Unit := validateSights n.name n.sights

def render (n : Namespace) (d : Dialect) (scope : Scope) : Except Error String :=
  renderSights n.name n.sights d scope

end Namespace
end Ambient
