import RangeLookup.Decimal

/-!
# The shortest decimal fraction of a number

The fractions that round to a number form an interval, from halfway to its lower neighbour to
halfway to its upper one, ends included when the number is even. Of the grids of one, two, and up to
seventeen digits, the first that has a point in the interval gives the fraction; of two points the
nearer, of equally near ones the upper.
-/

namespace RangeLookup

/-- A power with a whole exponent, one below exponent zero. -/
def wholePower (base : Nat) (exponent : Int) : Nat := Nat.pow base exponent.toNat

/-- A positive floating-point number `mantissa` times two to the power of `exponent`. -/
structure Dyadic where
  mantissa : Nat
  exponent : Int
  deriving DecidableEq, Repr

namespace Dyadic

/-- The magnitude of a finite number, zero excepted. -/
def ofFloat? (x : Float) : Option Dyadic :=
  let bits := x.toBits.toNat
  let fraction := bits % 4503599627370496
  let exponent := bits / 4503599627370496 % 2048
  if exponent = 2047 then none
  else if exponent = 0 then if fraction = 0 then none else some ⟨fraction, -1074⟩
  else some ⟨4503599627370496 + fraction, (exponent : Int) - 1075⟩

/-- A quarter of the last place of the number, as a fraction of two whole numbers. -/
def quarter (v : Dyadic) : Nat × Nat :=
  (wholePower 2 (v.exponent - 2), wholePower 2 (2 - v.exponent))

/-- How many quarters the lower neighbour is away, halved: the gap is narrow below a power of
two. -/
def lowerGap (v : Dyadic) : Nat :=
  if v.mantissa = 4503599627370496 ∧ -1074 < v.exponent then 1 else 2

/-- A decimal fraction as a fraction of two whole numbers. -/
def ratio (d : Decimal) : Nat × Nat :=
  (d.digits * wholePower 10 d.exponent, wholePower 10 (-d.exponent))

/-- Whether the decimal fraction rounds to the number. -/
def readsBack (v : Dyadic) (d : Decimal) : Bool :=
  let (unit, scale) := v.quarter
  let (n, m) := ratio d
  let lower := (4 * v.mantissa - v.lowerGap) * unit * m
  let upper := (4 * v.mantissa + 2) * unit * m
  let point := n * scale
  if v.mantissa % 2 = 0 then lower ≤ point && point ≤ upper else lower < point && point < upper

/-- The greatest point of a decimal grid that is not above the number. -/
def floorOn (v : Dyadic) (exponent : Int) : Nat :=
  let (unit, scale) := v.quarter
  4 * v.mantissa * unit * wholePower 10 (-exponent) / (scale * wholePower 10 exponent)

/-- Whether the point above the floor of a grid is at least as near as the floor. -/
def upperIsNearer (v : Dyadic) (exponent : Int) : Bool :=
  let (unit, scale) := v.quarter
  let (n, m) := ratio ⟨2 * v.floorOn exponent + 1, exponent⟩
  n * scale ≤ 8 * v.mantissa * unit * m

/-- The nearer of the two points of a grid around the number that round to it. -/
def onGrid? (v : Dyadic) (exponent : Int) : Option Decimal :=
  let low : Decimal := ⟨v.floorOn exponent, exponent⟩
  let high : Decimal := ⟨v.floorOn exponent + 1, exponent⟩
  match v.readsBack low, v.readsBack high with
  | true, true => some (if v.upperIsNearer exponent then high else low)
  | true, false => some low
  | false, true => some high
  | false, false => none

/-- The power of ten just above the number. -/
def magnitude (v : Dyadic) : Int := (Radix.decimal.write (v.floorOn (-400))).length - 400

/-- The fraction of fewest digits that rounds to the number, and nearest of those. -/
def shortest (v : Dyadic) : Decimal :=
  let grids := (List.range 17).map fun n : Nat => v.magnitude - 1 - (n : Int)
  (grids.findSome? v.onGrid?).getD ⟨v.floorOn (v.magnitude - 17), v.magnitude - 17⟩

end Dyadic

/-- How floating-point numbers are written. -/
structure FloatStyle where
  /-- A whole number has a point and a zero behind it. -/
  keepPoint : Bool

/-- A floating-point number, written out in full with the fewest digits that tell it from others. -/
def FloatStyle.text (style : FloatStyle) (x : Float) : String :=
  if x.isNaN then "NaN"
  else
    let sign := if x.toBits.toNat / 9223372036854775808 = 1 then "-" else ""
    if x.isInf then sign ++ "inf"
    else
      let d := match Dyadic.ofFloat? x with
        | some v => v.shortest
        | none => ⟨0, 0⟩
      let point := if style.keepPoint && (0 ≤ d.exponent || d.digits = 0) then ".0" else ""
      sign ++ d.text ++ point

end RangeLookup
