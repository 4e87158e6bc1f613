import HomeScript.Number.Double
import HomeScript.Number.Decimal

/-! # Shortest digits

Of the decimals that read back as a given double, the one with the fewest digits is chosen, and of
those the nearest to the double. The values compared are `a * 2 ^ b` and `c * 10 ^ d`, in exact
arithmetic on natural numbers.
-/

namespace HomeScript

/-- Which of two equally near decimals is chosen. -/
inductive Tie where
  | even
  | away
  deriving DecidableEq

namespace Double

/-- The reals nearer to a double than to its neighbours, in quarters of the double's last place. -/
structure Range where
  low : Nat
  value : Nat
  high : Nat
  /-- Both ends belong to the range, as ties are read to the even significand. -/
  closed : Bool
  /-- The binary exponent of one quarter of the last place. -/
  scale : Int

/-- A power of two is twice as near to the double below it as to the one above it. -/
def range (x : Double) : Range where
  low := 4 * x.significand - (if x.fractionField = 0 && 1 < x.exponentField then 1 else 2)
  value := 4 * x.significand
  high := 4 * x.significand + 2
  closed := x.significand % 2 == 0
  scale := x.scale - 2

/-- The factors that put `a * 2 ^ b` and `c * 10 ^ d` on one scale, as `a * fst` and `c * snd`. -/
def scaling (b d : Int) : Nat × Nat :=
  (Nat.pow 10 (-d).toNat <<< b.toNat, Nat.pow 10 d.toNat <<< (-b).toNat)

/-- Whether `units * 10 ^ exponent` reads back as the double of this range. -/
def Range.contains (r : Range) (units : Nat) (exponent : Int) : Bool :=
  let (binary, decimal) := scaling r.scale exponent
  let c := units * decimal
  if r.closed then r.low * binary ≤ c && c ≤ r.high * binary
  else r.low * binary < c && c < r.high * binary

/-- The decimals with this exponent next to the double on either side, if they read back. -/
def Range.onGrid (r : Range) (tie : Tie) (exponent : Int) : Option Nat :=
  let (binary, decimal) := scaling r.scale exponent
  let below := r.value * binary / decimal
  let rest := r.value * binary % decimal
  let above := below + 1
  match r.contains below exponent, r.contains above exponent with
  | true, true =>
    if 2 * rest < decimal || (2 * rest == decimal && tie == .even && below % 2 == 0) then
      some below
    else some above
  | true, false => some below
  | false, true => some above
  | false, false => none

/-- The grids are tried from the coarsest; the last one has at least seventeen digits. -/
def Range.search (r : Range) (tie : Tie) (exponent : Int) : Nat → Nat × Int
  | 0 => ((r.onGrid tie exponent).getD 0, exponent)
  | tries + 1 =>
    match r.onGrid tie exponent with
    | some units => (units, exponent)
    | none => r.search tie (exponent - 1) tries

/-- An exponent of ten above the magnitude of `significand * 2 ^ scale`. -/
def topExponent (x : Double) : Int :=
  (x.significand.log2 + 1 + x.scale) * 30103 / 100000 + 1

/-- A coarsest grid is one on which the double lies between zero and the first point. -/
def shortest (x : Double) (tie : Tie) : Decimal :=
  if x.significand = 0 then { negative := x.isNegative, units := 0 }
  else
    let (units, exponent) := x.range.search tie x.topExponent 20
    { negative := x.isNegative, units, exponent }

end Double
end HomeScript
