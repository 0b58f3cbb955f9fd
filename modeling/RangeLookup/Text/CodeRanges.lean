/-!
# Sets of characters

Sets are given by ranges of code points. A property of the character standard is a list of inclusive
ranges in ascending order; membership scans the list.
-/

namespace RangeLookup.Text

/-- A set of characters as inclusive ranges of code points, in ascending order. -/
abbrev CodeRanges := List (Nat × Nat)

/-- Whether the character lies in one of the ranges. -/
def CodeRanges.has (ranges : CodeRanges) (c : Char) : Bool :=
  ranges.any fun range => range.1 ≤ c.toNat && c.toNat ≤ range.2

theorem CodeRanges.has_iff {ranges : CodeRanges} {c : Char} :
    ranges.has c = true ↔ ∃ range ∈ ranges, range.1 ≤ c.toNat ∧ c.toNat ≤ range.2 := by
  simp [CodeRanges.has, List.any_eq_true]

end RangeLookup.Text
