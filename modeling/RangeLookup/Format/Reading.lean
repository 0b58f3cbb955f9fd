import RangeLookup.Error
import RangeLookup.Text.Blank

/-!
# Formats as they are typed

Two widths with `x`, `X` or a comma between them, blanks around any part and a plus sign before a
width allowed. Every other text is refused as a whole and as it was typed.
-/

namespace RangeLookup

/-- A width as it is typed: decimal digits behind an optional plus sign, blanks around them. -/
def Width.read? (text : List Char) : Option Width :=
  (Radix.decimal.read? (dropPlus (Text.trim text))).bind Width.ofNat?

namespace Format

/-- The characters that can stand between the two widths. -/
def isSeparator (c : Char) : Bool := c == 'x' || c == 'X' || c == ','

/-- The text before the first separator and the text after it. -/
def splitAtSeparator? (text : List Char) : Option (List Char × List Char) :=
  match text.dropWhile (!isSeparator ·) with
  | [] => none
  | _ :: after => some (text.takeWhile (!isSeparator ·), after)

/-- A format as it is typed. -/
def read? (text : List Char) : Option Format := do
  let (base, span) ← splitAtSeparator? (Text.trim text)
  return ⟨← Width.read? base, ← Width.read? span⟩

/-- The format that a text stands for; a text that stands for none is itself the error. -/
def parse (text : String) : Except Error Format :=
  match read? text.toList with
  | some f => .ok f
  | none => .error (.invalidFormat text)

/-- The format with fields of as many bits; widths out of bounds are the error, written out. -/
def ofBits (base span : Nat) : Except Error Format :=
  match ofBits? base span with
  | some f => .ok f
  | none => .error (.invalidFormat (textOfBits base span))

end Format

end RangeLookup
