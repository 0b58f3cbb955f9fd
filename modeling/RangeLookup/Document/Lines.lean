import RangeLookup.Bytes

/-!
# Lines of a document

A line ends at a line feed, and a carriage return directly before the line feed belongs to the end
as well; what follows the last line feed is a line unless it is empty. The text of a line is its
UTF-8 decoding, if it has one.
-/

namespace RangeLookup.Document

/-- A line without the carriage return that came before its line feed. -/
def dropReturn (line : Bytes) : Bytes := if line.getLast? = some 13 then line.dropLast else line

/-- The lines of a document. -/
def lines (document : Bytes) : List Bytes :=
  let pieces := document.splitOn 10
  pieces.dropLast.map dropReturn ++ (pieces.getLast?.filter (· ≠ [])).toList

/-- The text that the bytes of a line encode. -/
def decode? (line : Bytes) : Option String := String.fromUTF8? ⟨line.toArray⟩

@[simp] theorem lines_nil : lines [] = [] := by simp [lines]

/-- What follows the last line feed is a line unless it is empty. -/
theorem lines_of_no_feed {rest : Bytes} (h : 10 ∉ rest) :
    lines rest = if rest = [] then [] else [rest] := by
  rw [lines, List.splitOn_eq_singleton h]
  by_cases hr : rest = [] <;> simp [hr]

/-- A line feed ends the line before it. -/
theorem lines_append_feed {line rest : Bytes} (h : 10 ∉ line) :
    lines (line ++ 10 :: rest) = dropReturn line :: lines rest := by
  have ne := List.splitOn_ne_nil 10 rest
  rw [lines, lines, List.splitOn_append_cons_self, List.splitOn_eq_singleton h]
  simp only [List.cons_append, List.nil_append]
  rw [List.dropLast_cons_of_ne_nil ne, List.map_cons, List.cons_append, List.getLast?_cons]
  cases hl : (rest.splitOn 10).getLast? with
  | none => exact absurd (List.getLast?_eq_none_iff.1 hl) ne
  | some last => rfl

/-- What holds of a text without a line feed, and of a line in front of every text of which it holds,
holds of every document. -/
theorem lines_induction {p : Bytes → Prop} (last : ∀ rest, 10 ∉ rest → p rest)
    (feed : ∀ line rest, 10 ∉ line → p rest → p (line ++ 10 :: rest)) (document : Bytes) :
    p document := by
  induction hn : document.length using Nat.strongRecOn generalizing document with
  | ind n ih =>
    subst hn
    by_cases more : 10 ∈ document
    · obtain ⟨line, rest, rfl, first⟩ := List.eq_append_cons_of_mem more
      exact feed line rest first (ih rest.length (by simp; omega) rest rfl)
    · exact last document more

/-- The first lines of a document are the lines of its beginning. -/
theorem exists_lines_eq_take (document : Bytes) (k : Nat) :
    ∃ start rest, start ++ rest = document ∧ lines start = (lines document).take k := by
  induction document using lines_induction generalizing k with
  | last rest none =>
    cases k with
    | zero => exact ⟨[], rest, rfl, by simp⟩
    | succ k =>
      refine ⟨rest, [], List.append_nil rest, ?_⟩
      rw [lines_of_no_feed none]
      split <;> simp
  | feed line rest none ih =>
    cases k with
    | zero => exact ⟨[], line ++ 10 :: rest, rfl, by simp⟩
    | succ k =>
      obtain ⟨start, tail, rfl, first⟩ := ih k
      refine ⟨line ++ 10 :: start, tail, by simp, ?_⟩
      rw [lines_append_feed none, lines_append_feed none, first, List.take_succ_cons]

end RangeLookup.Document
