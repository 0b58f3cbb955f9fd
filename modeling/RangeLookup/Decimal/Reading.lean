import RangeLookup.Decimal

/-!
# Floating-point numbers as they are typed

Digits on either side of an optional point, an exponent, or a word for infinity or for no number,
letters of either case, and a sign in front.
-/

namespace RangeLookup.Decimal

/-- The exponent of a number: nothing, or a letter, a sign and digits. -/
def exponent? : List Char → Option Int
  | [] => some 0
  | e :: text =>
    let (sign, digits) := splitSign text
    if e = 'e' ∨ e = 'E' then (Radix.decimal.read? digits).map fun n => sign * (n : Int)
    else none

/-- The fraction that a text without a sign stands for. -/
def read? (text : List Char) : Option Decimal := do
  let whole := text.takeWhile Radix.decimal.isDigit
  let rest := text.dropWhile Radix.decimal.isDigit
  let (places, rest) := match rest with
    | '.' :: rest => (rest.takeWhile Radix.decimal.isDigit, rest.dropWhile Radix.decimal.isDigit)
    | rest => ([], rest)
  if whole.isEmpty && places.isEmpty then none
  else return ⟨Radix.decimal.value (whole ++ places), (← exponent? rest) - places.length⟩

/-- The floating-point number that a text stands for. -/
def float? (text : List Char) : Option Float :=
  let (sign, magnitude) := splitSign text
  let signed (x : Float) : Float := if sign < 0 then -x else x
  let word := String.ofList (magnitude.map Char.toLower)
  if word = "inf" ∨ word = "infinity" then some (signed (1.0 / 0.0))
  else if word = "nan" then some (signed (0.0 / 0.0))
  else (read? magnitude).map fun d => signed d.toFloat

end RangeLookup.Decimal
