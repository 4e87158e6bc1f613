/-! # Decimals

A decimal is a sign, a natural number of units and a power of ten, and has the value
`± units * 10 ^ exponent`.
-/

namespace HomeScript

structure Decimal where
  negative : Bool := false
  units : Nat
  exponent : Int := 0
  deriving DecidableEq

namespace Decimal

def digits (d : Decimal) : List Char :=
  Nat.toDigits 10 d.units

/-- The position of the point relative to the start of the digits. -/
def point (d : Decimal) : Int :=
  d.digits.length + d.exponent

/-- The sign and the digits around the point, with no exponent. -/
def positional (d : Decimal) : List Char :=
  let sign := if d.negative then ['-'] else []
  let ds := d.digits
  if 0 ≤ d.exponent then
    sign ++ ds ++ List.replicate d.exponent.toNat '0'
  else if 0 < d.point then
    sign ++ ds.take d.point.toNat ++ '.' :: ds.drop d.point.toNat
  else
    sign ++ '0' :: '.' :: List.replicate (-d.point).toNat '0' ++ ds

/-- One digit before the point, and the power of ten of that digit with its sign. -/
def scientific (d : Decimal) : List Char :=
  let sign := if d.negative then ['-'] else []
  let mantissa := match d.digits with
    | first :: rest@(_ :: _) => first :: '.' :: rest
    | one => one
  let power := d.point - 1
  sign ++ mantissa ++ 'e' :: (if power < 0 then '-' else '+') :: Nat.toDigits 10 power.natAbs

end Decimal
end HomeScript
