import Mathlib.Data.Nat.Digits.Defs
import RangeLookup.Bytes
import RangeLookup.Interval
import RangeLookup.Numeral
import RangeLookup.Text.Blank

/-!
# The notation of documents

The notation by its rules, with nothing said about how a line is read.

From the side of the reader a number is a run of hexadecimal digits that goes on as far as it can,
and a marker in front belongs to it if a digit follows the marker (`Number`). A line opens with a
number behind its blanks (`Opens`), and a second one behind two dots is its upper bound
(`UpperBound`, `Gives`).

From the side of the writer a number is its standard numeral, with letters of either case, zeros in
front and a marker in front of these as one likes (`Spells`), and a line is blanks, two numbers with
two dots between them, and a remark behind a space (`Prints`).
-/

namespace RangeLookup.Document

/-- A digit of a hexadecimal number, letters in either case. -/
def HexDigit (c : Char) : Prop := '0' ≤ c ∧ c ≤ '9' ∨ 'a' ≤ c ∧ c ≤ 'f' ∨ 'A' ≤ c ∧ c ≤ 'F'

instance : DecidablePred HexDigit := fun _ => inferInstanceAs (Decidable (_ ∨ _))

/-- How much a digit counts: its place in the row of digits. -/
def weight (c : Char) : Nat := "0123456789abcdef".toList.idxOf c.toLower

/-- The number that digits stand for, the last of which are the ones. -/
def positional (digits : List Char) : Nat := Nat.ofDigits 16 (digits.reverse.map weight)

/-- Digits, at least one of them and no more behind. -/
structure Run (digits rest : List Char) : Prop where
  filled : digits ≠ []
  inside : ∀ c ∈ digits, HexDigit c
  ended : ∀ c ∈ rest.head?, ¬ HexDigit c

/-- The second character of a marker. -/
def MarkerEnd (x : Char) : Prop := x = 'x' ∨ x = 'X'

instance : DecidablePred MarkerEnd := fun _ => inferInstanceAs (Decidable (_ ∨ _))

/-- The text starts with a marker and a digit. -/
def Marked (text : List Char) : Prop :=
  ∃ x d more, MarkerEnd x ∧ HexDigit d ∧ text = '0' :: x :: d :: more

/-- The text starts with the number, and goes on with the rest. -/
inductive Number (text : List Char) (n : Nat) (rest : List Char) : Prop
  | marked {x : Char} {digits : List Char} (marker : MarkerEnd x) (run : Run digits rest)
      (value : positional digits = n) (text_eq : text = '0' :: x :: (digits ++ rest))
  | plain {digits : List Char} (unmarked : ¬ Marked text) (run : Run digits rest)
      (value : positional digits = n) (text_eq : text = digits ++ rest)

/-- Behind its blanks the line starts with the number, and goes on with the rest. -/
def Opens (line : List Char) (n : Nat) (rest : List Char) : Prop :=
  ∃ lead text, line = lead ++ text ∧ (∀ c ∈ lead, Text.isBlank c = true) ∧ Number text n rest

/-- Behind two dots the text starts with the number. -/
def UpperBound (text : List Char) (n : Nat) : Prop :=
  ∃ tail rest, text = '.' :: '.' :: tail ∧ Number tail n rest

/-- The line gives the range: a number, and the upper bound directly behind it if there is one, or
else the same number again. -/
inductive Gives (line : List Char) : Interval → Prop
  | range {low high : UInt32} {rest : List Char} (lower : Opens line low.toNat rest)
      (upper : UpperBound rest high.toNat) : Gives line ⟨low, high⟩
  | single {low : UInt32} {rest : List Char} (lower : Opens line low.toNat rest)
      (alone : ∀ n, ¬ UpperBound rest n) : Gives line ⟨low, low⟩

/-- If the line has an upper bound, then one that fits a word. -/
def Bounded (line : List Char) : Prop :=
  ∀ n rest m, Opens line n rest → UpperBound rest m → m < 4294967296

/-- A marker, or none. -/
def markers : List (List Char) := [[], ['0', 'x'], ['0', 'X']]

/-- The text is the number in digits: the standard numeral with letters of either case, behind a
marker or none and any number of zeros. -/
def Spells (text : List Char) (n : Nat) : Prop :=
  ∃ marker ∈ markers, ∃ (zeros : Nat) (digits : List Char),
    digits.map Char.toUpper = Radix.hexadecimal.write n ∧
      text = marker ++ (List.replicate zeros '0' ++ digits)

/-- The line gives the range in print: blanks, the bounds with two dots between them, and either
nothing more or a remark behind a space. -/
inductive Prints (line : List Char) (r : Interval) : Prop
  | intro {lead low high remark : List Char} (blank : ∀ c ∈ lead, Text.isBlank c = true)
      (unbroken : '\n' ∉ lead) (lower : Spells low r.low.toNat) (upper : Spells high r.high.toNat)
      (apart : ∀ c ∈ remark.head?, c = ' ') (feedless : '\n' ∉ remark)
      (line_eq : line = lead ++ (low ++ '.' :: '.' :: (high ++ remark)))

/-- The bytes of a text. -/
def encode (text : List Char) : Bytes := text.flatMap String.utf8EncodeChar

/-- The document with the texts as its lines, each ended by a line feed. -/
def ofLines (texts : List (List Char)) : Bytes := encode (texts.flatMap (· ++ ['\n']))

end RangeLookup.Document
