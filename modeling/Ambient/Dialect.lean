import Ambient.Text.Blank

/-! The languages that declarations are written in, and where in a file a declaration stands. -/
namespace Ambient

inductive Dialect
  | lua
  | typeScript
deriving DecidableEq, Repr, Inhabited

namespace Dialect

def all : List Dialect := [.lua, .typeScript]

def name : Dialect → String
  | .lua => "lua"
  | .typeScript => "typescript"

/-- The extension of a declaration file. -/
def extension : Dialect → String
  | .lua => "lua"
  | .typeScript => "d.ts"

/-- Spaces to a level of indentation. -/
def indent : Dialect → Nat
  | .lua => 4
  | .typeScript => 2

/-- The dialect of a file that names none. -/
def standard : Dialect := .lua

/-- Each dialect goes by its name, TypeScript also by `ts`. -/
def ofWord? (word : List Char) : Option Dialect :=
  if word = "lua".toList then some .lua
  else if word = "typescript".toList || word = "ts".toList then some .typeScript
  else none

/-- A dialect as a person types it, in any case and with blanks around it. -/
def ofText? (text : String) : Option Dialect :=
  ofWord? ((Text.trim text.toList).map Char.toLower)

theorem ofText?_name (d : Dialect) : ofText? d.name = some d := by cases d <;> rfl

end Dialect

inductive Scope
  | topLevel
  | inNamespace
deriving DecidableEq, Repr

/-- A TypeScript declaration says that it is ambient unless the namespace around it does. -/
def Scope.declare : Scope → String
  | .topLevel => "declare "
  | .inNamespace => ""

end Ambient
