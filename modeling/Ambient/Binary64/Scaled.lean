import Ambient.Binary64

/-!
Scaling by powers of ten in double precision: the significand is rounded first, then its product or
quotient with a rounded power of ten. The result may be a few steps off the nearest number.
-/
namespace Ambient.Binary64

/-- The rank of the power of ten, which is at most 10^308. -/
def tenRank (exponent : Nat) : Nat := rankOfRatio (tenTo exponent) 1

/-- The rounded product of two magnitudes. -/
def mulRank (m n : Nat) : Nat := rankOfRatio (units m * units n) (1 <<< 2148)

/-- The rounded quotient of two magnitudes. -/
def divRank (m n : Nat) : Nat := rankOfRatio (units m) (units n)

/-- Division by a power of ten, 10^308 at a time, until nothing is left. -/
def shrink : Nat → Nat → Nat → Nat
  | 0, rank, _ => rank
  | steps + 1, rank, exponent =>
    if rank = 0 then 0
    else if exponent ≤ 308 then divRank rank (tenRank exponent)
    else shrink steps (divRank rank (tenRank 308)) (exponent - 308)

/-- `significand * 10 ^ exponent`, if it is finite. -/
def scaled? (negative : Bool) (significand : Nat) (exponent : Int) : Option Binary64 :=
  let start := rankOfRatio significand 1
  if start = 0 then some (zero negative)
  else if 308 < exponent then none
  else if 0 ≤ exponent then
    let x := ofRank negative (mulRank start (tenRank exponent.toNat))
    if x.isFinite then some x else none
  else
    let down := (-exponent).toNat
    some (ofRank negative (shrink (down / 308 + 1) start down))

end Ambient.Binary64
