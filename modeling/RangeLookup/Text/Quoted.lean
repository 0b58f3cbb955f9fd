import RangeLookup.Numeral
import RangeLookup.Text.NonGraphic
import RangeLookup.Text.GraphemeExtend

/-!
# Quoted text

Quoted text is text as messages show a text that somebody typed: between double quotes, with every
character visible. A quote, a backslash and four control characters are written behind a backslash;
a character without a mark of its own, or one that would attach to its neighbour, by its number.
-/

namespace RangeLookup.Text

/-- Characters that a quoted text shows by number. -/
def byNumber (c : Char) : Bool := nonGraphic.has c || graphemeExtend.has c

/-- The number of a character between braces, letters in lower case. -/
def numbered (c : Char) : List Char :=
  ['\\', 'u', '\x7b'] ++ (Radix.hexadecimal.write c.toNat).map Char.toLower ++ ['\x7d']

/-- One character of a quoted text. -/
def escape (c : Char) : List Char :=
  if c = '\x00' then ['\\', '0']
  else if c = '\t' then ['\\', 't']
  else if c = '\n' then ['\\', 'n']
  else if c = '\r' then ['\\', 'r']
  else if c = '"' ∨ c = '\\' then ['\\', c]
  else if byNumber c then numbered c
  else [c]

/-- The text between double quotes, every character visible. -/
def quote (text : String) : String :=
  String.ofList ('"' :: text.toList.flatMap escape ++ ['"'])

end RangeLookup.Text
