import HomeScript.Number.Double
import HomeScript.Number.Decimal

/-! # The nearest double

A fraction is rounded to the nearest double, a tie going to the even significand, and a fraction too
large for all of them to infinity.
-/

namespace HomeScript.Double

/-- The whole number nearest to `num / den`. -/
def roundDiv (num den : Nat) : Nat :=
  let quotient := num / den
  let rest := num % den
  if 2 * rest < den || (2 * rest == den && quotient % 2 == 0) then quotient else quotient + 1

/-- The greatest `e` with `2 ^ e ≤ num / den`. -/
def floorLog2 (num den : Nat) : Int :=
  let e : Int := num.log2 - den.log2
  if den <<< e.toNat ≤ num <<< (-e).toNat then e else e - 1

/--
Magnitudes count the doubles from zero upwards, so the significand is added to `2 ^ 52` times the
number of scales below, and a carry out of it leads to the next scale.
-/
def magnitudeOf (num den : Nat) : Nat :=
  if num = 0 then 0
  else
    let scale := max (floorLog2 num den - 52) (-1074)
    let significand := roundDiv (num <<< (-scale).toNat) (den <<< scale.toNat)
    min ((scale + 1074).toNat <<< 52 + significand) infiniteMagnitude

def ofFraction (negative : Bool) (num den : Nat) : Double :=
  ofMagnitude negative (magnitudeOf num den)

def ofInt (n : Int) : Double :=
  ofFraction (n < 0) n.natAbs 1

/--
Decimals from `10 ^ 400` upwards are beyond all finite doubles, and those below `10 ^ (-400)` are
nearer to zero than to any other, so their powers of ten need not be computed.
-/
def ofDecimal (d : Decimal) : Double :=
  if d.units = 0 then ofMagnitude d.negative 0
  else if 400 < d.point then infinity d.negative
  else if d.point < -400 then ofMagnitude d.negative 0
  else
    ofFraction d.negative (d.units * Nat.pow 10 d.exponent.toNat)
      (Nat.pow 10 (-d.exponent).toNat)

end HomeScript.Double
