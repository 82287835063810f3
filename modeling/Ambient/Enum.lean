import Ambient.Class
import Ambient.Value

/-! Enumerations. A member without a value has the number after the last integer before it. -/
namespace Ambient

structure EnumMember where
  name : String
  value : Option Value := none
  desc : Option String := none
deriving DecidableEq

structure Enum where
  name : String
  /-- Only TypeScript has constant enumerations. -/
  constant : Bool := false
  members : List EnumMember := []
  desc : String := ""
deriving DecidableEq

namespace Enum

def validate (e : Enum) : Except Error Unit := do
  requireName .enum e.name
  requireItems .member (.enum e.name) (e.members.map EnumMember.name)

/-! Keys. -/

def isIdentifierStart (c : Char) : Bool := c.isAlpha || c = '_'

def isIdentifierPart (c : Char) : Bool := c.isAlphanum || c = '_'

/-- An ASCII identifier. -/
def isIdentifier : List Char → Bool
  | [] => false
  | c :: cs => isIdentifierStart c && cs.all isIdentifierPart

def luaKeywords : List String :=
  ["and", "break", "do", "else", "elseif", "end", "false", "for", "function", "goto", "if", "in",
    "local", "nil", "not", "or", "repeat", "return", "then", "true", "until", "while"]

/-- A name as a key of the dialect: bare if it can be, else a string literal. -/
def key (d : Dialect) (name : String) : String :=
  match d with
  | .lua =>
    if isIdentifier name.toList && name ∉ luaKeywords then name
    else "[" ++ Literal.string d name ++ "]"
  | .typeScript => if isIdentifier name.toList then name else Literal.string d name

/-! Numbering. -/

/-- The number after `n`; the largest has none after it. -/
def successor (n : Int64) : Int64 := if n = Int64.maxValue then n else n + 1

/-- The state of the count between two members. -/
structure Count where
  /-- The number of the next member without a value. -/
  next : Int64
  /-- Whether TypeScript would give it the same number unasked. -/
  agreed : Bool
deriving DecidableEq

namespace Count

def start : Count := ⟨0, true⟩

def after (c : Count) (m : EnumMember) : Count :=
  match m.value with
  | some (.int n) => ⟨successor n, true⟩
  | some _ => ⟨c.next, false⟩
  | none => ⟨successor c.next, true⟩

/-- What is written behind the key of the member at this place. -/
def assignment (c : Count) (d : Dialect) (m : EnumMember) : String :=
  match d, m.value with
  | _, some v => " = " ++ v.literal d
  | .lua, none => " = " ++ toString c.next.toInt
  | .typeScript, none => if c.agreed then "" else " = " ++ toString c.next.toInt

def entry (c : Count) (d : Dialect) (m : EnumMember) : List Writer.Step :=
  docSteps d m.desc ++ [.line (key d m.name ++ c.assignment d m ++ ",")]

/-- The entries of members from this place on. -/
def entries (c : Count) (d : Dialect) : List EnumMember → List Writer.Step
  | [] => []
  | m :: ms => c.entry d m ++ (c.after m).entries d ms

end Count

/-! Rendering. -/

/-- The line before the members, up to the brace. -/
def header (e : Enum) (d : Dialect) (scope : Scope) : String :=
  match d with
  | .lua => e.name ++ " = \x7b"
  | .typeScript =>
    scope.declare ++ (if e.constant then "const " else "") ++ "enum " ++ e.name ++ " \x7b"

/-- Lua marks the table that follows as an enumeration. -/
def annotation (e : Enum) (d : Dialect) : List Writer.Step :=
  match d with
  | .lua => [.line ("---@enum " ++ e.name)]
  | .typeScript => []

def body (e : Enum) (d : Dialect) (scope : Scope) : List Writer.Step :=
  match e.members with
  | [] => [.line (e.header d scope ++ "\x7d")]
  | members =>
    [.line (e.header d scope), .indent] ++ Count.start.entries d members ++ [.dedent, .line "\x7d"]

def steps (e : Enum) (d : Dialect) (scope : Scope) : List Writer.Step :=
  .docIf d e.desc :: e.annotation d ++ e.body d scope

def render (e : Enum) (d : Dialect) (scope : Scope) : String := Writer.render d (e.steps d scope)

def equalMember (m n : EnumMember) : Bool :=
  m.name = n.name && Value.equalOption m.value n.value && m.desc = n.desc

/-- Equality with values compared as values. -/
def equal (e f : Enum) : Bool :=
  e.name = f.name && e.constant = f.constant && e.desc = f.desc &&
    e.members.length = f.members.length && (e.members.zip f.members).all fun p => equalMember p.1 p.2

end Enum
end Ambient
