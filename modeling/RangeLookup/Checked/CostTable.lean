import RangeLookup.Checked
import RangeLookup.CostTable.Tree

/-!
# Cost tables with checked operations

A table is rows of cells, row `first` from the diagonal on, and nothing in the data says that the
rows reach as far as they are read.
-/

namespace RangeLookup

namespace Checked

open CostTable

/-- How far the last value of a range lies above the first. -/
def span (r : Interval) : Checked UInt32 := subWord r.high r.low

/-- Whether a field can hold the value. -/
def holds (w : Width) (v : UInt32) : Checked Bool :=
  if 32 ≤ w.bits then pure true
  else do return v.toNat < (← bit w.bits)

/-- Bytes for one entry, the last one filled up. -/
def entrySize (f : Format) : Checked Nat := do
  let bits ← addWord (← wordOf f.base.bits) (← wordOf f.span.bits)
  return (bits.toNat + 7) / 8

/-- The cost of the ranges from `first` to `last` as one flat table. -/
def tableCost (ranges : Array Interval) (f : Format) (first last : Nat) : Checked Cost := do
  assert (first ≤ last ∧ last < ranges.size)
  let base := (← element ranges first).low
  let offset ← subWord (← element ranges last).low base
  if !(← holds f.base offset) then return Cost.infinite
  else
    if !(← (← slice ranges first last).allM fun r => do holds f.span (← span r)) then
      return Cost.infinite
    else
      let count ← wordOf (← addIndex (← subIndex last first) 1)
      let bytes := saturate ((← entrySize f) * count.toNat)
      return ⟨if f.isRaw then bytes else saturate (bytes.toNat + Cost.baseSize), 0⟩

/-- The ranges, the formats, and a cost for each run of ranges. -/
structure Table where
  ranges : Array Interval
  formats : List Format
  rows : Array (Array Cost)

/-- The runs of `n` ranges by length, and those of one length from left to right. -/
def fillOrder (n : Nat) : Checked (List (Nat × Nat)) := do
  let diagonals ← (List.range n).mapM fun length => do
    (List.range (← subIndex n length)).mapM fun first => return (first, ← addIndex first length)
  return diagonals.flatten

namespace Table

/-- The table in which no run has an encoding yet. -/
def blank (ranges : Array Interval) (formats : List Format) : Checked Table := do
  let rows ← (List.range ranges.size).mapM fun first =>
    return Array.replicate (← subIndex ranges.size first) Cost.infinite
  return ⟨ranges, formats, rows.toArray⟩

/-- The cost of the run from `first` to `last`. -/
def cost (t : Table) (first last : Nat) : Checked Cost := do
  element (← element t.rows first) (← subIndex last first)

/-- The cost of all ranges together. -/
def total (t : Table) : Checked Cost := do t.cost 0 (← subIndex t.rows.size 1)

/-- The cost of the run with a comparison after the range at `pivot`. -/
def splitCost (t : Table) (first pivot last : Nat) : Checked Cost := do
  assert (first ≤ pivot ∧ pivot < last)
  return Cost.split (← t.cost first pivot) (← t.cost (← addIndex pivot 1) last)

/-- The least cost of a split of the run, infinite for a single range. -/
def minSplitCost (t : Table) (first last : Nat) : Checked Cost := do
  return Cost.least (← (pivots first last).mapM fun pivot => t.splitCost first pivot last)

/-- The least cost of the run as one flat table. -/
def minTableCost (t : Table) (first last : Nat) : Checked Cost := do
  return Cost.least (← t.formats.mapM fun f => tableCost t.ranges f first last)

/-- The table with the cell of one run computed from the cells of shorter runs. -/
def fill (t : Table) (run : Nat × Nat) : Checked Table := do
  let best := min (← t.minTableCost run.1 run.2) (← t.minSplitCost run.1 run.2)
  let row ← replace (← element t.rows run.1) (← subIndex run.2 run.1) best
  return { t with rows := ← replace t.rows run.1 row }

/-- The first range that no format holds on its own, as an error. -/
def infeasible (t : Table) : Checked Decision := do
  let found ← (List.range t.rows.size).findM? fun i => return !(← t.cost i i).isFinite
  let index := found.getD 0
  fail (.infeasible index (← element t.ranges index))

/-- The first format in which the run costs as much as it is to cost. -/
def cheapestFormat? (t : Table) (target : Cost) (first last : Nat) : Checked (Option Format) :=
  t.formats.findM? fun f => do return (← tableCost t.ranges f first last) = target

/-- The first split after which the run costs as much as it is to cost. -/
def cheapestPivot? (t : Table) (target : Cost) (first last : Nat) : Checked (Option Nat) :=
  (pivots first last).findM? fun pivot => do return (← t.splitCost first pivot last) = target

/-- The tree for a run; a run whose cell is none of its candidates has no encoding. -/
def treeOver (t : Table) (first last : Nat) : Checked Decision := do
  let target ← t.cost first last
  match ← t.cheapestFormat? target first last with
  | some f => return .leaf ⟨f, first, last⟩
  | none =>
    match ← t.cheapestPivot? target first last with
    | some pivot =>
      -- a pivot that was found is one of the pivots, which is what makes both parts shorter
      if _ : first ≤ pivot ∧ pivot < last then
        let left ← t.treeOver first pivot
        let _ ← addIndex pivot 1
        let right ← t.treeOver (pivot + 1) last
        return .split pivot left right
      else fault .assertion
    | none => t.infeasible
termination_by last - first
decreasing_by all_goals omega

/-- The cheapest tree for all ranges. -/
def tree (t : Table) : Checked Decision := do
  if (← t.total).isFinite then t.treeOver 0 (← subIndex t.rows.size 1) else t.infeasible

end Table

/-- The least cost of every run of the ranges, and of all together. -/
def optimize (ranges : Array Interval) (formats : List Format) : Checked Table :=
  if ranges.size = 0 then fail .emptyInput
  else do
    let table ← (← fillOrder ranges.size).foldlM Table.fill (← Table.blank ranges formats)
    let _ ← table.total
    return table

end Checked

end RangeLookup
