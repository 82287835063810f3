/-!
Double-precision numbers, exactly. A finite magnitude is its rank among all magnitudes, so each
number has one form; its size is counted in units of 2^-1074. Rounding is to nearest, ties to even.
-/
namespace Ambient

/-- Magnitudes that share a spacing: 2^52. -/
abbrev binade : Nat := 0x10000000000000

/-- Powers of ten. -/
abbrev tenTo (exponent : Nat) : Nat := Nat.pow 10 exponent

inductive Binary64
  | nan
  | infinite (negative : Bool)
  | finite (negative : Bool) (rank : Fin (2047 * binade))
deriving DecidableEq, Repr

namespace Binary64

/-- How often the spacing has doubled below this rank. -/
def doublings (rank : Nat) : Nat := rank / binade - 1

/-- The magnitude in steps of its own spacing. -/
def significand (rank : Nat) : Nat := rank - doublings rank * binade

/-- The magnitude in units of 2^-1074. -/
def units (rank : Nat) : Nat := significand rank <<< doublings rank

def zero (negative : Bool) : Binary64 := .finite negative ⟨0, by decide⟩

def isFinite : Binary64 → Bool
  | .finite .. => true
  | _ => false

/-- The number of this rank; past the last rank lies infinity. -/
def ofRank (negative : Bool) (rank : Nat) : Binary64 :=
  if h : rank < 2047 * binade then .finite negative ⟨rank, h⟩ else .infinite negative

/-- The natural number nearest to `num / den`, of two the even one. -/
def roundDiv (num den : Nat) : Nat :=
  let q := num / den
  let r := num % den
  if 2 * r < den then q
  else if den < 2 * r then q + 1
  else q + q % 2

/-- The rank of the magnitude nearest to `num / den`, were the ranks to go on past the last one. -/
def rankOfRatio (num den : Nat) : Nat :=
  let scaled := num <<< 1074
  let shift := (scaled / den).log2 - 52
  shift * binade + roundDiv scaled (den <<< shift)

/-- The number nearest to `num / den`. -/
def ofRatio (negative : Bool) (num den : Nat) : Binary64 := ofRank negative (rankOfRatio num den)

def ofInt (n : Int) : Binary64 := ofRatio (n < 0) n.natAbs 1

/--
The number nearest to `digits * 10 ^ exponent`. A value past every finite number, or below half of
the least one, is told from the size of the exponent alone.
-/
def ofDecimal (negative : Bool) (digits : Nat) (exponent : Int) : Binary64 :=
  if digits = 0 then zero negative
  else if 310 < exponent then .infinite negative
  else if 0 ≤ exponent then ofRatio negative (digits * tenTo exponent.toNat) 1
  else if (digits.log2 / 3 + 340 : Nat) < -exponent then zero negative
  else ofRatio negative digits (tenTo (-exponent).toNat)

/-- Numbers are equal as values: zero has no sign, and what is not a number equals nothing. -/
def equal : Binary64 → Binary64 → Bool
  | .infinite a, .infinite b => a = b
  | .finite a m, .finite b n => m = n && (a = b || m.val = 0)
  | _, _ => false

end Binary64
end Ambient
