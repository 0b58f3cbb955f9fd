import RangeLookup.Decision

/-!
# Trees made from trees

The subtrees of a tree, the tree that is left when ranges at the ends of its run are dropped, and
the tree for the same ranges at other indices.
-/

namespace RangeLookup

/-- The table for the ranges whose indices lie higher by `offset`. -/
def FlatTable.shift (offset : Nat) (t : FlatTable) : FlatTable :=
  { t with first := t.first + offset, last := t.last + offset }

namespace Decision

/-- The tree and all trees below it. -/
def subtrees : Decision → List Decision
  | leaf table => [leaf table]
  | split pivot left right => split pivot left right :: (left.subtrees ++ right.subtrees)

/-- The tree for a part of its run. A table is cut down to the part, and a split gives way to one of
its subtrees where the part lies on one side of it. -/
def part : Decision → Nat → Nat → Decision
  | leaf table, first, last => leaf { table with first, last }
  | split pivot left right, first, last =>
    if last ≤ pivot then left.part first last
    else if pivot < first then right.part first last
    else split pivot (left.part first pivot) (right.part (pivot + 1) last)

/-- The tree for the ranges whose indices lie higher by `offset`. -/
def shift (offset : Nat) : Decision → Decision
  | leaf table => leaf (table.shift offset)
  | split pivot left right => split (pivot + offset) (left.shift offset) (right.shift offset)

@[simp] theorem shift_zero (tree : Decision) : tree.shift 0 = tree := by
  induction tree with
  | leaf table => rfl
  | split pivot left right ihl ihr => rw [shift, ihl, ihr, Nat.add_zero]

end Decision

end RangeLookup
