import RangeLookup.CostTable

/-!
# The decision tree behind a cost table

A cost table keeps costs, not choices; the choice for a run is the first that has the cost of the
run, formats before splits, formats in the order of the catalog and splits from left to right.
-/

namespace RangeLookup

namespace CostTable

/-- The first range that no format holds on its own, as an error. -/
def infeasible (t : CostTable) : Error :=
  let index := ((List.range t.size).find? fun i => !(t.cost i i).isFinite).getD 0
  .infeasible index (t.store.get index)

/-- The first format in which the run costs what its cell says. -/
def cheapestFormat? (t : CostTable) (first last : Nat) : Option Format :=
  t.catalog.formats.find? fun f => t.tableCost f first last = t.cost first last

/-- The first split after which the run costs what its cell says. -/
def cheapestPivot? (t : CostTable) (first last : Nat) : Option Nat :=
  (pivots first last).find? fun pivot => t.splitCost first pivot last = t.cost first last

theorem cheapestPivot?_bounds {t : CostTable} {first last pivot : Nat}
    (h : t.cheapestPivot? first last = some pivot) : first ≤ pivot ∧ pivot < last :=
  mem_pivots.1 (List.mem_of_find?_eq_some h)

/-- The tree for a run; a run whose cell is none of its candidates has no encoding. -/
def treeOver (t : CostTable) (first last : Nat) : Except Error Decision :=
  match t.cheapestFormat? first last with
  | some f => .ok (.leaf ⟨f, first, last⟩)
  | none =>
    match h : t.cheapestPivot? first last with
    | some pivot => do
      let left ← t.treeOver first pivot
      let right ← t.treeOver (pivot + 1) last
      return .split pivot left right
    | none => .error t.infeasible
termination_by last - first
decreasing_by
  all_goals
    have := cheapestPivot?_bounds h
    omega

/-- The cheapest tree for all ranges. -/
def tree (t : CostTable) : Except Error Decision :=
  if t.total.isFinite then t.treeOver 0 (t.size - 1) else .error t.infeasible

end CostTable

end RangeLookup
