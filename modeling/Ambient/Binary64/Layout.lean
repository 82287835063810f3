import Ambient.Binary64.Shortest

/-! How numbers are written: with their shortest digits, positionally or with an exponent. -/
namespace Ambient.Binary64

def zeros (n : Nat) : String := String.ofList (List.replicate n '0')

/-- The exponent of the first digit. -/
def Decimal.magnitude (d : Decimal) : Int :=
  (Nat.toDigits 10 d.digits).length - 1 + d.exponent

/-- Digits around a point; a whole number has one zero behind it. -/
def Decimal.positional (d : Decimal) : String :=
  let ds := Nat.toDigits 10 d.digits
  let point := ds.length + d.exponent
  if 0 ≤ d.exponent then String.ofList ds ++ zeros d.exponent.toNat ++ ".0"
  else if 0 < point then
    String.ofList (ds.take point.toNat) ++ "." ++ String.ofList (ds.drop point.toNat)
  else "0." ++ zeros (-point).toNat ++ String.ofList ds

/-- How numbers are written. -/
structure Layout where
  /-- The exponents that are written positionally start here. -/
  least : Int
  /-- The exponents that are written positionally lie below this one. -/
  limit : Int
  /-- Whether a positive exponent has a sign. -/
  plus : Bool
  tie : Tie
deriving DecidableEq, Repr

/-- One digit, a point if more follow, and the exponent. -/
def Decimal.scientific (l : Layout) (d : Decimal) : String :=
  let ds := Nat.toDigits 10 d.digits
  let mantissa := match ds.drop 1 with
    | [] => String.ofList ds
    | rest => String.ofList (ds.take 1) ++ "." ++ String.ofList rest
  mantissa ++ (if l.plus && 0 < d.magnitude then "e+" else "e") ++ toString d.magnitude

/-- Zero is written positionally in every layout. -/
def Decimal.text (l : Layout) (d : Decimal) : String :=
  if d.digits = 0 || (l.least ≤ d.magnitude && d.magnitude < l.limit) then d.positional
  else d.scientific l

def signed (negative : Bool) (magnitude : String) : String :=
  if negative then "-" ++ magnitude else magnitude

/-- A sign and the text of a finite magnitude; other numbers have a name. -/
def textBy (finite : Nat → String) : Binary64 → String
  | .nan => "NaN"
  | .infinite n => signed n "inf"
  | .finite n rank => signed n (finite rank)

/-- The text of a number in a layout; a finite one shows a fraction or an exponent. -/
def textIn (l : Layout) : Binary64 → String := textBy fun rank => (shortest l.tie rank).text l

/-- Numbers from 10^-4 up to 10^16 are written positionally. -/
def text : Binary64 → String := textIn ⟨-4, 16, false, .larger⟩

/-- The text of a number without an exponent; a finite one always has a point. -/
def pointedText : Binary64 → String := textBy fun rank => (shortest .larger rank).positional

end Ambient.Binary64
