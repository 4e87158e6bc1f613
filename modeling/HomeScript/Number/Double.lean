/-! # Doubles

A double is its 64 bits: a sign, eleven bits of exponent and 52 of fraction. A finite one has the
value `± significand * 2 ^ scale`.
-/

namespace HomeScript

structure Double where
  bits : UInt64
  deriving DecidableEq

namespace Double

def isNegative (x : Double) : Bool :=
  1 <<< 63 ≤ x.bits.toNat

def exponentField (x : Double) : Nat :=
  x.bits.toNat >>> 52 % 2048

def fractionField (x : Double) : Nat :=
  x.bits.toNat % 1 <<< 52

def isFinite (x : Double) : Bool :=
  x.exponentField < 2047

/-- Doubles of exponent field zero lack the leading bit that all others have. -/
def significand (x : Double) : Nat :=
  if x.exponentField = 0 then x.fractionField else 1 <<< 52 + x.fractionField

def scale (x : Double) : Int :=
  (max x.exponentField 1 : Int) - 1075

def zero : Double := ⟨0⟩

/-- The bits without the sign, read as a number, grow with the magnitude. -/
def ofMagnitude (negative : Bool) (magnitude : Nat) : Double :=
  ⟨UInt64.ofNat (if negative then 1 <<< 63 + magnitude else magnitude)⟩

/-- The magnitude of infinity; those below it are of finite numbers. -/
def infiniteMagnitude : Nat := 2047 <<< 52

def infinity (negative : Bool) : Double :=
  ofMagnitude negative infiniteMagnitude

def nan : Double :=
  ofMagnitude false (infiniteMagnitude + 1 <<< 51)

end Double
end HomeScript
