import RangeLookup.Checked
import RangeLookup.Decision

/-!
# Costs in words that may not suffice

Where a cost stops at the greatest word, the computation here faults: each of its products and sums
is checked. A cost that comes out of it is exact, in bytes and in comparisons.
-/

namespace RangeLookup

namespace Exact

open Checked

/-- The product of two words. -/
def mulWord (a b : UInt32) : Checked UInt32 :=
  if a.toNat * b.toNat < 4294967296 then pure (a * b) else fault .overflow

/-- Bytes of a table and of the base it needs. -/
def tableBytes (t : FlatTable) : Checked UInt32 := do
  let bytes ← mulWord (← wordOf t.format.entrySize) (← wordOf t.count)
  if t.format.isRaw then return bytes else addWord bytes (← wordOf Cost.baseSize)

/-- The cost of a table, infinite unless it exists. -/
def tableCost (s : RangeStore) (t : FlatTable) : Checked Cost :=
  if t.feasible s then do return ⟨← tableBytes t, 0⟩ else return Cost.infinite

/-- The cost of a comparison between two encodings; none exists unless both do. -/
def splitCost (left right : Cost) : Checked Cost :=
  if left.isFinite && right.isFinite then do
    let size ← addWord (← addWord (← wordOf Cost.splitSize) left.size) right.size
    let depth ← addWord (max left.depth right.depth) 1
    return ⟨size, depth⟩
  else return Cost.infinite

/-- The cost of a tree for the ranges of a store. -/
def treeCost (s : RangeStore) : Decision → Checked Cost
  | .leaf table => tableCost s table
  | .split _ left right => do splitCost (← treeCost s left) (← treeCost s right)

end Exact

end RangeLookup
