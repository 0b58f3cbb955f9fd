import RangeLookup.Decimal
import RangeLookup.Toml.Value

/-!
# The numbers of TOML

Digits may be grouped by single underscores; a decimal number has no zero in front of other digits;
integers fit 64 bits with sign, and a float above the greatest is refused.
-/

namespace RangeLookup.Toml

/-- Digits without the underscores that group them. -/
def ungroup (isDigit : Char → Bool) : List Char → Option (List Char)
  | [] => none
  | [c] => if isDigit c then some [c] else none
  | c :: '_' :: rest => if isDigit c then (ungroup isDigit rest).map (c :: ·) else none
  | c :: rest => if isDigit c then (ungroup isDigit rest).map (c :: ·) else none

/-- The digits of a decimal integer: no zero in front of others. -/
def wholeDigits (text : List Char) : Option (List Char) :=
  match ungroup Radix.decimal.isDigit text with
  | some ('0' :: _ :: _) => none
  | digits => digits

/-- A whole number in a radix with a marker in front. -/
def marked? (r : Radix) (digits : List Char) : Option Int :=
  (ungroup r.isDigit digits).map fun ds => (r.value ds : Int)

/-- A whole number of any size. -/
def whole? : List Char → Option Int
  | '0' :: 'x' :: digits => marked? .hexadecimal digits
  | '0' :: 'o' :: digits => marked? .octal digits
  | '0' :: 'b' :: digits => marked? .binary digits
  | text =>
    let (sign, digits) := splitSign text
    (wholeDigits digits).map fun ds => sign * (Radix.decimal.value ds : Int)

/-- A whole number that fits 64 bits with sign. -/
def integer? (text : List Char) : Option Int := (whole? text).filter fitsWord

def isMantissaChar (c : Char) : Bool := Radix.decimal.isDigit c || c == '_'

/-- The exponent that ends a float; nothing stands for zero. -/
def exponent? : List Char → Option Int
  | [] => some 0
  | e :: text =>
    if e = 'e' ∨ e = 'E' then
      let (sign, digits) := splitSign text
      (ungroup Radix.decimal.isDigit digits).map fun ds => sign * (Radix.decimal.value ds : Int)
    else none

/-- A float without its sign: a fraction, an exponent, or both follow the whole digits. -/
def magnitude? (text : List Char) : Option Decimal := do
  let front ← wholeDigits (text.takeWhile isMantissaChar)
  match text.dropWhile isMantissaChar with
  | [] => none
  | '.' :: rest => do
    let places ← ungroup Radix.decimal.isDigit (rest.takeWhile isMantissaChar)
    let e ← exponent? (rest.dropWhile isMantissaChar)
    return ⟨Radix.decimal.value (front ++ places), e - places.length⟩
  | rest => return ⟨Radix.decimal.value front, ← exponent? rest⟩

/-- A float; words stand for infinity and for no number. -/
def float? (text : List Char) : Option Float :=
  let (sign, rest) := splitSign text
  let signed (x : Float) : Float := if sign < 0 then -x else x
  if rest = ['i', 'n', 'f'] then some (signed (1.0 / 0.0))
  else if rest = ['n', 'a', 'n'] then some (signed (0.0 / 0.0))
  else do
    let x := signed (← magnitude? rest).toFloat
    if x.isInf && 0 < x then none else return x

end RangeLookup.Toml
