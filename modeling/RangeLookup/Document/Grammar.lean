import RangeLookup.Interval
import RangeLookup.Numeral
import RangeLookup.Text.Blank

/-!
# What a line of a document says

Behind its leading blanks a line starts with a hexadecimal number, and two dots directly after it
join a second number as the upper bound; all else on the line is remark. A number is the longest run
of hexadecimal digits, behind a marker if a digit follows it.
-/

namespace RangeLookup.Document

/-- The text behind the marker of a hexadecimal number, or the whole text if no digit follows. -/
def dropMarker : List Char → List Char
  | '0' :: x :: d :: rest =>
    if (x = 'x' ∨ x = 'X') ∧ Radix.hexadecimal.isDigit d then d :: rest else '0' :: x :: d :: rest
  | text => text

/-- The leading hexadecimal number that fits a word, and the text after it. -/
def number? (text : List Char) : Option (UInt32 × List Char) :=
  let digits := (dropMarker text).takeWhile Radix.hexadecimal.isDigit
  let value := Radix.hexadecimal.value digits
  if !digits.isEmpty && value < 4294967296 then
    some (UInt32.ofNat value, (dropMarker text).dropWhile Radix.hexadecimal.isDigit)
  else none

/-- The upper bound that the text after the lower bound gives. -/
def upperBound? : List Char → Option UInt32
  | '.' :: '.' :: rest => (number? rest).map (·.1)
  | _ => none

/-- The bounds that a line gives; a line without an upper bound stands for a single value. -/
def range? (line : List Char) : Option Interval := do
  let (low, rest) ← number? (Text.trimStart line)
  return ⟨low, (upperBound? rest).getD low⟩

end RangeLookup.Document
