import Ambient.Binary64.Layout
import Ambient.Literal

/-! Literal values. -/
namespace Ambient

inductive Value
  | nil
  | bool (b : Bool)
  | int (n : Int64)
  | float (x : Binary64)
  | string (s : String)
  /-- An expression that is written as it stands. -/
  | raw (expression : String)
deriving DecidableEq

namespace Value

def int? : Value → Option Int64
  | .int n => some n
  | _ => none

def floatLiteral (d : Dialect) (x : Binary64) : String :=
  match d, x with
  | .lua, .nan => "(0/0)"
  | .lua, .infinite negative => Binary64.signed negative "math.huge"
  | .typeScript, .nan => "NaN"
  | .typeScript, .infinite negative => Binary64.signed negative "Infinity"
  | _, .finite .. => x.text

/-- The expression that denotes a value. -/
def literal (d : Dialect) : Value → String
  | .nil => match d with
    | .lua => "nil"
    | .typeScript => "null"
  | .bool b => if b then "true" else "false"
  | .int n => toString n.toInt
  | .float x => floatLiteral d x
  | .string s => Literal.string d s
  | .raw e => e

/-- What stands where no value is given. -/
def unset : Dialect → String
  | .lua => "nil"
  | .typeScript => "undefined"

def literalOrUnset (d : Dialect) : Option Value → String
  | some v => v.literal d
  | none => unset d

/-- Equality with floats compared as numbers; values of two kinds are never equal. -/
def equal : Value → Value → Bool
  | .float x, .float y => x.equal y
  | v, w => v = w

def equalOption : Option Value → Option Value → Bool
  | some v, some w => v.equal w
  | none, none => true
  | _, _ => false

end Value
end Ambient
