import RangeLookup.Numeral

/-!
# Decimal fractions

A fraction is a whole number times a power of ten. It is written out in full, without an exponent,
and read as the floating-point number nearest to it.
-/

namespace RangeLookup

/-- `digits` times ten to the power of `exponent`. -/
structure Decimal where
  digits : Nat
  exponent : Int
  deriving DecidableEq, Repr

namespace Decimal

/-- The digits with the point `places` from their right end, and a digit before it. -/
def withPoint (places : Nat) (digits : List Char) : List Char :=
  let filled := List.replicate (places + 1 - digits.length) '0' ++ digits
  filled.take (filled.length - places) ++ '.' :: filled.drop (filled.length - places)

/-- The fraction written out in full. -/
def text (d : Decimal) : String :=
  let digits := Radix.decimal.write d.digits
  if d.digits = 0 then "0"
  else if 0 ≤ d.exponent then
    String.ofList (digits ++ List.replicate d.exponent.toNat '0')
  else String.ofList (withPoint (-d.exponent).toNat digits)

/-- The place of the leading digit: the fraction is below ten to this power. -/
def magnitude (d : Decimal) : Int := (Radix.decimal.write d.digits).length + d.exponent

/-- The nearest floating-point number; far beyond the greatest it is infinite, far below the least
positive one it is zero. -/
def toFloat (d : Decimal) : Float :=
  if d.digits = 0 then 0
  else if 400 < d.magnitude then 1.0 / 0.0
  else if d.magnitude < -400 then 0
  else Float.ofScientific d.digits (d.exponent < 0) d.exponent.natAbs

end Decimal

end RangeLookup
