import RangeLookup.Listing.Symbolic

/-!
# Groups of parentheses

The parentheses of a text enclose groups. A group has the word behind its opening parenthesis as its
head, and the groups inside it as its parts. The groups of a symbolic listing are those of its tree:
two parts in the group of a split, and in the group of a table one part for each entry.
-/

namespace RangeLookup

namespace Listing

/-- A group in parentheses: its head and the groups inside it. -/
inductive Nest where
  | group (head : String) (parts : List Nest)

/-- The groups of a text inside groups that were opened before. `parts` are the groups that were
closed where the text begins, last one first, and `opened` the groups around them, innermost first,
each with its head and its earlier parts. There are none where a parenthesis has no partner. -/
def scan : List Char → List Nest → List (String × List Nest) → Option (List Nest)
  | [], parts, opened => if opened.isEmpty then some parts.reverse else none
  | c :: rest, parts, opened =>
    if c = '(' then scan rest [] ((String.ofList (rest.takeWhile (· != ' ')), parts) :: opened)
    else if c = ')' then
      opened.head?.bind fun around =>
        scan rest (.group around.1 parts.reverse :: around.2) opened.tail
    else scan rest parts opened

/-- The groups of a text, if all parentheses have partners. -/
def nesting? (text : List Char) : Option (List Nest) := scan text [] []

/-- As many parentheses are closed as are opened, and at no place more than were opened before. -/
def Balanced (text : List Char) : Prop :=
  text.count '(' = text.count ')' ∧ ∀ front, front <+: text → front.count ')' ≤ front.count '('

/-- How often a word occurs in a text. -/
def occurrences (word : List Char) : List Char → Nat
  | [] => 0
  | c :: rest => (if word.isPrefixOf (c :: rest) then 1 else 0) + occurrences word rest

end Listing

/-- The word behind the parenthesis of a table. -/
def FlatTable.head (t : FlatTable) : String :=
  "table-" ++ decimal t.format.base.bits ++ "-" ++ decimal t.format.span.bits

/-- The groups that a tree is written as. -/
def Decision.nest (s : RangeStore) : Decision → Listing.Nest
  | leaf t => .group t.head ((t.entries s).map fun e => .group (decimal e.offset.toNat) [])
  | split _ left right => .group "split" [left.nest s, right.nest s]

end RangeLookup
