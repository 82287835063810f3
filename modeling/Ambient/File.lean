import Ambient.Alias
import Ambient.Namespace

/-! Declaration files. -/
namespace Ambient

structure File where
  dialect : Option Dialect := none
  types : List Alias := []
  enums : List Enum := []
  classes : List Class := []
  vars : List Variable := []
  functions : List Function := []
  namespaces : List Namespace := []
deriving DecidableEq

/-- A declaration at the top of a file. -/
inductive Declaration
  | alias (a : Alias)
  | member (m : Member)
  | space (n : Namespace)
deriving DecidableEq

namespace Declaration

def name : Declaration → String
  | .alias a => a.name
  | .member m => m.name
  | .space n => n.name

def validate : Declaration → Except Error Unit
  | .alias a => a.validate
  | .member m => m.validate
  | .space n => n.validate

def render (d : Dialect) : Declaration → Except Error String
  | .alias a => .ok (a.render d .topLevel)
  | .member m => m.render d .topLevel
  | .space n => n.render d .topLevel

end Declaration

namespace File

/-- The declarations in the order in which they are checked and written. -/
def declarations (f : File) : List Declaration :=
  f.types.map .alias ++ f.enums.map (.member ∘ .enum) ++ f.classes.map (.member ∘ .cls) ++
    f.vars.map (.member ∘ .var) ++ f.functions.map (.member ∘ .func) ++ f.namespaces.map .space

def size (f : File) : Nat := f.declarations.length

/-- The dialect of the file when the caller picks none. -/
def effectiveDialect (f : File) : Dialect := f.dialect.getD .standard

def validate (f : File) : Except Error Unit := do
  f.declarations.forM Declaration.validate
  requireUnique .file (f.declarations.map Declaration.name)

/-- Lua files are marked as holding definitions only. -/
def preamble : Dialect → List String
  | .lua => ["---@meta"]
  | .typeScript => []

/-- The sections with a blank line between any two, and a line break after the last. -/
def joined : List String → String
  | [] => ""
  | sections => "\n\n".intercalate sections ++ "\n"

def render (f : File) (d : Dialect) : Except Error String := do
  let sections ← f.declarations.mapM (Declaration.render d)
  return joined (preamble d ++ sections)

end File
end Ambient
