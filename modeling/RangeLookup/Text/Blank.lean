import RangeLookup.Text.CodeRanges

/-!
# Blanks

The property White_Space, 25 characters in ten ranges, and the trimming of a text by it.
`trimStart_append_blanks` and `trimStart_of_not_isBlank` say what trimming removes.
-/

namespace RangeLookup.Text

/-- The property White_Space. -/
def blanks : CodeRanges :=
  [(0x9, 0xD), (0x20, 0x20), (0x85, 0x85), (0xA0, 0xA0), (0x1680, 0x1680), (0x2000, 0x200A),
   (0x2028, 0x2029), (0x202F, 0x202F), (0x205F, 0x205F), (0x3000, 0x3000)]

def isBlank (c : Char) : Bool := blanks.has c

/-- The text without its leading blanks. -/
def trimStart (text : List Char) : List Char := text.dropWhile isBlank

/-- The text without its trailing blanks. -/
def trimEnd (text : List Char) : List Char := (text.reverse.dropWhile isBlank).reverse

/-- The text without the blanks at either end. -/
def trim (text : List Char) : List Char := trimEnd (trimStart text)

theorem trimStart_append_blanks {lead text : List Char} (h : ∀ c ∈ lead, isBlank c = true) :
    trimStart (lead ++ text) = trimStart text := by
  rw [trimStart, List.dropWhile_append_of_pos h, trimStart]

theorem trimStart_of_not_isBlank {c : Char} {text : List Char} (h : isBlank c = false) :
    trimStart (c :: text) = c :: text := by
  simp [trimStart, h]

end RangeLookup.Text
