import Ambient.Dialect

/-! What can be wrong with a declaration. -/
namespace Ambient

/-- The kinds of things that have a name of their own. -/
inductive Kind
  | alias
  | enum
  | cls
  | var
  | func
  | space
  | member
  | field
  | param
deriving DecidableEq, Repr

def Kind.text : Kind → String
  | .alias => "type"
  | .enum => "enum"
  | .cls => "class"
  | .var => "variable"
  | .func => "function"
  | .space => "namespace"
  | .member => "enum member"
  | .field => "field"
  | .param => "parameter"

/-- Where names have to differ. -/
inductive Owner
  | func (name : String)
  | cls (name : String)
  | enum (name : String)
  | space (name : String)
  | file
deriving DecidableEq, Repr

namespace Owner

def name? : Owner → Option String
  | .func n | .cls n | .enum n | .space n => some n
  | .file => none

def text : Owner → String
  | .func n => "function '" ++ n ++ "'"
  | .cls n => "class '" ++ n ++ "'"
  | .enum n => "enum '" ++ n ++ "'"
  | .space n => "namespace '" ++ n ++ "'"
  | .file => "the declaration file"

/-- What the names in it belong to. -/
def itemText : Owner → String
  | .func _ => "parameter"
  | .cls _ => "field"
  | .enum _ => "enum member"
  | .space _ => "member"
  | .file => "declaration"

end Owner

inductive Error
  | emptyName (kind : Kind)
  | duplicate (owner : Owner) (name : String)
  /-- A kind of declaration that a dialect has no form for. -/
  | notImplemented (kind : Kind) (dialect : Dialect)
  | unknownDialect (text : String)
  /-- A member that someone is changing while its namespace is read. -/
  | inUse (kind : Kind) (space : String)
deriving DecidableEq, Repr

namespace Error

def message : Error → String
  | .emptyName kind => kind.text ++ " name must not be empty"
  | .duplicate owner name => "duplicate " ++ owner.itemText ++ " '" ++ name ++ "' in " ++ owner.text
  | .notImplemented kind d => kind.text ++ " declarations cannot be rendered as " ++ d.name ++ " yet"
  | .unknownDialect s => "unknown dialect '" ++ s ++ "' (expected one of: lua, typescript, ts)"
  | .inUse kind space =>
    "a " ++ kind.text ++ " in namespace '" ++ space ++ "' is mutably borrowed and cannot be rendered"

def code : Error → String
  | .emptyName _ => "declgen::empty_name"
  | .duplicate .. => "declgen::duplicate"
  | .notImplemented .. => "declgen::not_implemented"
  | .unknownDialect _ => "declgen::unknown_dialect"
  | .inUse .. => "declgen::in_use"

def help? : Error → Option String
  | .duplicate owner _ =>
    some ("each " ++ owner.itemText ++ " name may only appear once in " ++ owner.text)
  | .unknownDialect _ => some "valid dialects are: lua, typescript (or ts)"
  | .inUse .. => some "release the mutable borrow before rendering the namespace"
  | .emptyName _ | .notImplemented .. => none

/-- Whether the declaration itself is at fault, and not how it is used. -/
def isValidation : Error → Bool
  | .emptyName _ | .duplicate .. => true
  | _ => false

def isNotImplemented : Error → Bool
  | .notImplemented .. => true
  | _ => false

end Error

/-- A dialect as a person types it. -/
def Dialect.read (text : String) : Except Error Dialect :=
  match ofText? text with
  | some d => .ok d
  | none => .error (.unknownDialect text)

end Ambient
