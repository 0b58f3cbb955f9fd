import RangeLookup.Decision

/-!
# The shape of decision trees

Which ranges a tree covers, how high it is, how many bytes it takes up, and the table that it leads
a value to. A tree that covers a run shows its bounds, by `Covers.first_eq` and `Covers.last_eq`,
and has one leaf more than splits, by `length_leaves`.
-/

namespace RangeLookup

namespace Decision

/-- The tree divides the ranges from `first` to `last` among its leaves, each split after its pivot
range. -/
def Covers : Decision → Nat → Nat → Prop
  | leaf table, first, last => table.first = first ∧ table.last = last ∧ first ≤ last
  | split pivot left right, first, last =>
    first ≤ pivot ∧ pivot < last ∧ left.Covers first pivot ∧ right.Covers (pivot + 1) last

instance decidableCovers : (tree : Decision) → (first last : Nat) →
    Decidable (tree.Covers first last)
  | leaf _, _, _ => inferInstanceAs (Decidable (_ ∧ _))
  | split pivot left right, first, last =>
    have := left.decidableCovers first pivot
    have := right.decidableCovers (pivot + 1) last
    inferInstanceAs (Decidable (_ ∧ _))

/-- The greatest number of comparisons before a table is reached. -/
def height : Decision → Nat
  | leaf _ => 0
  | split _ left right => max left.height right.height + 1

/-- The comparisons in the tree. -/
def splits : Decision → Nat
  | leaf _ => 0
  | split _ left right => left.splits + right.splits + 1

/-- The bytes of the tables and of the comparisons between them, with no greatest word to stop at. -/
def bytes : Decision → Nat
  | leaf table => table.bytes
  | split _ left right => Cost.splitSize + left.bytes + right.bytes

/-- The table that the comparisons lead a value to. -/
def route (s : RangeStore) (v : UInt32) : Decision → FlatTable
  | leaf table => table
  | split pivot left right =>
    if (s.get pivot).low ≤ v then right.route s v else left.route s v

theorem Covers.le {tree : Decision} {first last : Nat} (h : tree.Covers first last) :
    first ≤ last := by
  cases tree with
  | leaf table => exact h.2.2
  | split pivot left right => exact Nat.le_trans h.1 (Nat.le_of_lt h.2.1)

theorem Covers.first_eq {tree : Decision} {first last : Nat} (h : tree.Covers first last) :
    tree.first = first := by
  induction tree generalizing first last with
  | leaf table => exact h.1
  | split pivot left right ihl _ => exact ihl h.2.2.1

theorem Covers.last_eq {tree : Decision} {first last : Nat} (h : tree.Covers first last) :
    tree.last = last := by
  induction tree generalizing first last with
  | leaf table => exact h.2.1
  | split pivot left right _ ihr => exact ihr h.2.2.2

theorem length_leaves (tree : Decision) : tree.leaves.length = tree.splits + 1 := by
  induction tree with
  | leaf table => simp [splits]
  | split pivot left right ihl ihr => simp [splits, ihl, ihr]; omega

/-- Comparisons lead to a leaf of the tree. -/
theorem route_mem_leaves (s : RangeStore) (v : UInt32) (tree : Decision) :
    tree.route s v ∈ tree.leaves := by
  induction tree with
  | leaf table => simp [route]
  | split pivot left right ihl ihr =>
    rw [route, leaves_split, List.mem_append]
    split
    · exact .inr ihr
    · exact .inl ihl

end Decision

end RangeLookup
