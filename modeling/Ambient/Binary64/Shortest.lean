import Ambient.Binary64

/-!
The shortest decimal that reads back as a given number: of all decimals nearer to it than to any
other number, one with the coarsest last place, and of those the nearest. Of two equally near ones
the use decides.
-/
namespace Ambient.Binary64

/-- A decimal `digits * 10 ^ exponent`. -/
structure Decimal where
  digits : Nat
  exponent : Int
deriving DecidableEq, Repr

/-- Which of two equally near decimals is taken. -/
inductive Tie
  | larger
  /-- The one whose last digit is even. -/
  | even
deriving DecidableEq, Repr

/-- Whether the upper of the two neighbours is taken, when the lower one is this multiple. -/
def Tie.goesUp (tie : Tie) (below : Nat) : Bool :=
  match tie with
  | .larger => true
  | .even => below % 2 = 1

/-- The decimals that round to a number, in quarters of the unit 2^-1074. -/
structure Interval where
  value : Nat
  low : Nat
  high : Nat
  /-- Whether the ends belong to it. -/
  closed : Bool

/-- Half a step on both sides; below a power of two the step is half as long. -/
def interval (rank : Nat) : Interval :=
  let m := significand rank
  let step := 1 <<< doublings rank
  { value := 4 * m * step
    low := 4 * m * step - (if m = binade ∧ 1 < step then step else 2 * step)
    high := 4 * m * step + 2 * step
    closed := m % 2 = 0 }

def Interval.contains (i : Interval) (n : Nat) (scale : Nat) : Bool :=
  if i.closed then i.low * scale ≤ n && n ≤ i.high * scale
  else i.low * scale < n && n < i.high * scale

/--
The multiple of `10 ^ exponent` in the interval that is nearest to its value; only the two neighbours
of the value need a look.
-/
def Interval.multiple? (i : Interval) (tie : Tie) (exponent : Int) : Option Nat :=
  let scale := tenTo (-exponent).toNat
  let step := tenTo exponent.toNat <<< 1076
  let below := i.value * scale / step
  let rest := i.value * scale % step
  let hit (n : Nat) : Bool := i.contains (n * step) scale
  let up := step < 2 * rest || (step = 2 * rest && tie.goesUp below)
  if hit (below + 1) && (up || !hit below) then some (below + 1)
  else if hit below then some below
  else none

/-- The first exponent, going down from the given one, with a multiple in the interval. -/
def Interval.coarsest (i : Interval) (tie : Tie) : Nat → Int → Decimal
  | 0, exponent => ⟨i.value, exponent⟩
  | fuel + 1, exponent =>
    match i.multiple? tie exponent with
    | some n => ⟨n, exponent⟩
    | none => i.coarsest tie fuel (exponent - 1)

/-- No power of ten from this exponent on lies below the end of the interval. -/
def Interval.topExponent (i : Interval) : Int :=
  ((i.high.log2 : Int) - 1075) * 30103 / 100000 + 1

/-- Seventeen digits always tell two numbers apart; the first place tried may be two too high. -/
def shortest (tie : Tie) (rank : Nat) : Decimal :=
  if rank = 0 then ⟨0, 0⟩
  else (interval rank).coarsest tie 20 (interval rank).topExponent

end Ambient.Binary64
