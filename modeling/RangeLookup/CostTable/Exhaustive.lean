import RangeLookup.CostTable

/-!
# The least cost by exhaustive search

The least cost of a run by trial of every table and every split, with no cost kept for later. It is
far slower than a cost table, and says directly what the cells of one are to hold.
-/

namespace RangeLookup

/-- The least cost of encoding the ranges from `first` to `last`. -/
def leastCost (s : RangeStore) (c : Catalog) (first last : Nat) : Cost :=
  min (Cost.least (c.formats.map fun f => (FlatTable.mk f first last).cost s))
    (Cost.least ((CostTable.pivots first last).attach.map fun pivot =>
      Cost.split (leastCost s c first pivot.val) (leastCost s c (pivot.val + 1) last)))
termination_by last - first
decreasing_by
  all_goals
    have := CostTable.mem_pivots.1 pivot.property
    omega

theorem leastCost_eq (s : RangeStore) (c : Catalog) (first last : Nat) :
    leastCost s c first last =
      min (Cost.least (c.formats.map fun f => (FlatTable.mk f first last).cost s))
        (Cost.least ((CostTable.pivots first last).map fun pivot =>
          Cost.split (leastCost s c first pivot) (leastCost s c (pivot + 1) last))) := by
  rw [leastCost]
  congr 1
  exact congrArg Cost.least (List.attach_map_val (f := fun pivot =>
    Cost.split (leastCost s c first pivot) (leastCost s c (pivot + 1) last)))

end RangeLookup
