import RangeLookup.CostTable.Triangle
import RangeLookup.Decision

/-!
# Cost tables

The least cost of encoding each run of consecutive ranges, as one flat table or as a comparison
between two shorter runs. Cells are filled by length, so that both parts of every split are final
when a cell is computed.
-/

namespace RangeLookup

/-- The least costs of all runs of the ranges of a store. -/
structure CostTable where
  store : RangeStore
  catalog : Catalog
  cells : Triangle Cost

/-- The runs of `n` ranges by length, and those of one length from left to right. -/
def fillOrder (n : Nat) : List (Nat × Nat) :=
  (List.range n).flatMap fun length =>
    (List.range (n - length)).map fun first => (first, first + length)

namespace CostTable

/-- The table in which no run has an encoding yet. -/
def blank (s : RangeStore) (c : Catalog) : CostTable :=
  ⟨s, c, Triangle.replicate s.size Cost.infinite⟩

/-- How many ranges the table covers. -/
def size (t : CostTable) : Nat := t.cells.size

/-- The cost of the run from `first` to `last`. -/
def cost (t : CostTable) (first last : Nat) : Cost := t.cells.getD first last Cost.infinite

/-- The cost of all ranges together. -/
def total (t : CostTable) : Cost := t.cost 0 (t.size - 1)

/-- The cost of the run as one flat table of the format. -/
def tableCost (t : CostTable) (f : Format) (first last : Nat) : Cost :=
  (FlatTable.mk f first last).cost t.store

/-- The cost of the run with a comparison after the range at `pivot`. -/
def splitCost (t : CostTable) (first pivot last : Nat) : Cost :=
  Cost.split (t.cost first pivot) (t.cost (pivot + 1) last)

/-- The ranges of the run after which it can be split. -/
def pivots (first last : Nat) : List Nat := List.range' first (last - first)

theorem mem_pivots {first last p : Nat} : p ∈ pivots first last ↔ first ≤ p ∧ p < last := by
  rw [pivots, List.mem_range'_1]; omega

/-- The least cost of a split of the run, infinite for a single range. -/
def minSplitCost (t : CostTable) (first last : Nat) : Cost :=
  Cost.least ((pivots first last).map fun pivot => t.splitCost first pivot last)

/-- The least cost of the run as one flat table. -/
def minTableCost (t : CostTable) (first last : Nat) : Cost :=
  Cost.least (t.catalog.formats.map fun f => t.tableCost f first last)

/-- The table with the cell of one run computed from the cells of shorter runs. -/
def fill (t : CostTable) (run : Nat × Nat) : CostTable :=
  { t with
    cells := t.cells.set run.1 run.2 (min (t.minTableCost run.1 run.2)
      (t.minSplitCost run.1 run.2)) }

/-- The least cost of every run of the ranges. -/
def optimize (s : RangeStore) (c : Catalog) : Except Error CostTable :=
  if s.size = 0 then .error .emptyInput
  else .ok ((fillOrder s.size).foldl fill (blank s c))

end CostTable

end RangeLookup
