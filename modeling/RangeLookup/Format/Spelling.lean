import Mathlib.Data.Nat.Digits.Defs
import RangeLookup.Format
import RangeLookup.Text.Blank

/-!
# The notation of formats

The notation by its rules, with nothing said about how a text is read. A format is spelled as two
widths with a separator between them, the first of the separators in the text; a width as decimal
digits, with a plus sign in front of them or none. Blanks may stand around the whole and around
either width.
-/

namespace RangeLookup

/-- The text is the core with blanks on either side of it, all of them: the core neither starts nor
ends with one. -/
inductive Text.Padded (text core : List Char) : Prop
  | intro {lead trail : List Char} (before : ∀ c ∈ lead, isBlank c = true)
      (behind : ∀ c ∈ trail, isBlank c = true) (start : ∀ c ∈ core.head?, isBlank c = false)
      (stop : ∀ c ∈ core.getLast?, isBlank c = false) (text_eq : text = lead ++ (core ++ trail))

/-- A digit of a decimal number. -/
def DecimalDigit (c : Char) : Prop := '0' ≤ c ∧ c ≤ '9'

instance : DecidablePred DecimalDigit := fun _ => inferInstanceAs (Decidable (_ ∧ _))

/-- How much a decimal digit counts. -/
def decimalWeight (c : Char) : Nat := c.toNat - '0'.toNat

/-- The number that decimal digits stand for, the last of which are the ones. -/
def decimalValue (digits : List Char) : Nat := Nat.ofDigits 10 (digits.reverse.map decimalWeight)

/-- The text is the width in digits, as many as one likes, behind a plus sign or none. -/
inductive Width.Spells (text : List Char) (w : Width) : Prop
  | intro {sign digits : List Char} (plus : sign = [] ∨ sign = ['+']) (filled : digits ≠ [])
      (inside : ∀ c ∈ digits, DecimalDigit c) (value : decimalValue digits = w.bits)
      (text_eq : text = sign ++ digits)

/-- A character that separates the two widths of a format. -/
def Format.Separates (c : Char) : Prop := c = 'x' ∨ c = 'X' ∨ c = ','

instance : DecidablePred Format.Separates := fun _ => inferInstanceAs (Decidable (_ ∨ _))

/-- The text is the format: its widths on either side of the first separator. -/
inductive Format.Spells (text : List Char) (f : Format) : Prop
  | intro {core left right base span : List Char} {separator : Char} (padded : Text.Padded text core)
      (core_eq : core = left ++ separator :: right) (separates : Separates separator)
      (first : ∀ c ∈ left, ¬ Separates c) (base_padded : Text.Padded left base)
      (base_spells : Width.Spells base f.base) (span_padded : Text.Padded right span)
      (span_spells : Width.Spells span f.span)

/-- The texts are the formats, one each and in order. -/
def Format.SpellEach (texts : List String) (formats : List Format) : Prop :=
  List.Forall₂ (fun text f => Format.Spells text.toList f) texts formats

end RangeLookup
