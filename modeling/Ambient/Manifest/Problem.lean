import Ambient.Binary64.Layout
import Ambient.Text.Quoted

/-! What can be wrong with a manifest before its declarations are looked at. -/
namespace Ambient.Manifest

inductive Format
  | toml
  | json
deriving DecidableEq, Repr

/-- What stands in a document where something else is wanted. -/
inductive Found
  | null
  | boolean (b : Bool)
  | integer (n : Int)
  | float (x : Binary64)
  | text (s : String)
  | sequence
  | map
deriving DecidableEq

/-- Integers that fit a signed 64-bit word. -/
def isSignedWord (n : Int) : Bool := Int64.minValue.toInt ≤ n && n ≤ Int64.maxValue.toInt

/-- Integers that fit a signed or an unsigned 64-bit word. -/
def isWordInteger (n : Int) : Bool := Int64.minValue.toInt ≤ n && n < UInt64.size

/-- The least number past the signed 128-bit words. -/
def wideLimit : Int := 0x80000000000000000000000000000000

def ticked (s : String) : String := "`" ++ s ++ "`"

/-- An integer past 64 bits is named with the first word type that holds it. -/
def integerText (n : Int) : String :=
  "integer " ++ ticked (toString n) ++
    if isWordInteger n then "" else if n < wideLimit then " as i128" else " as u128"

/-- Numbers from 10^-5 up to 10^16 are written positionally, others with a signed exponent. -/
def jsonLayout : Binary64.Layout := ⟨-5, 16, true, .even⟩

/-- What is said of numbers in TOML has no exponent. -/
def floatText : Format → Binary64 → String
  | .toml, x => x.pointedText
  | .json, x => x.textIn jsonLayout

def Found.textOf (format : Format) : Found → String
  | .null => "null"
  | .boolean b => "boolean " ++ ticked (if b then "true" else "false")
  | .integer n => integerText n
  | .float x => "floating point " ++ ticked (floatText format x)
  | .text s => "string " ++ Text.quoted s
  | .sequence => "sequence"
  | .map => "map"

/-- Why a well-formed document does not hold what is wanted. -/
inductive Reason
  | missingField (name : String)
  | duplicateField (name : String)
  | unknownField (name : String) (known : List String)
  | unknownVariant (name : String) (known : List String)
  | invalidType (found : Found) (wanted : String)
  | tooShort (length : Nat) (wanted : String)
  /-- Nothing that a literal value could be. -/
  | noValue
  | integerOverflow
  | floatOverflow
  | wantedStringOrTable
  /-- A table that has to have one key has none or several. -/
  | wantedOneElement (several : Bool)
  | wantedTable (found : String)
  | wantedEmpty (collection : String)
deriving DecidableEq

def oneOf (names : List String) : String := ", ".intercalate (names.map ticked)

def Reason.text (format : Format) : Reason → String
  | .missingField n => "missing field " ++ ticked n
  | .duplicateField n => "duplicate field " ++ ticked n
  | .unknownField n known => "unknown field " ++ ticked n ++ ", expected one of " ++ oneOf known
  | .unknownVariant n known => "unknown variant " ++ ticked n ++ ", expected one of " ++ oneOf known
  | .invalidType found wanted => "invalid type: " ++ found.textOf format ++ ", expected " ++ wanted
  | .tooShort n wanted => "invalid length " ++ toString n ++ ", expected " ++ wanted
  | .noValue => "data did not match any variant of untagged enum ValueRepr"
  | .integerOverflow => "integer number overflowed"
  | .floatOverflow => "floating-point number overflowed"
  | .wantedStringOrTable => "wanted string or table"
  | .wantedOneElement several =>
    "wanted exactly 1 element, " ++ if several then "more than 1 element" else "found 0 elements"
  | .wantedTable found => "expected table, found " ++ found
  | .wantedEmpty collection => "expected empty " ++ collection

inductive Problem
  /-- The text ends too early. -/
  | ended
  /-- The text breaks the rules of its format. -/
  | malformed
  /-- A key has too many parts. -/
  | longKey
  /-- The text is in order, but not what it says. -/
  | data (reason : Reason)
deriving DecidableEq

/-- Whether the place of the problem in the text is known. -/
def Problem.isPlaced (p : Problem) : Bool := p ≠ .longKey

end Ambient.Manifest
