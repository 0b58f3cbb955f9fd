import RangeLookup.Catalog
import RangeLookup.Cost

/-!
# Flat tables

A flat table is a run of consecutive ranges stored in one format. Each range is an entry of two
words, its offset from the start of the run and its span. A table exists when the format holds the
offset of the last range and every span; then it costs its entries, and a base unless offsets are
stored in full.
-/

namespace RangeLookup

/-- One range in a table: where it starts relative to the run, and how far it reaches. -/
structure Entry where
  offset : UInt32
  span : UInt32
  deriving DecidableEq, Repr

/-- Both halves of the entry fit into their fields. -/
def Entry.Fits (e : Entry) (f : Format) : Prop :=
  f.base.holds e.offset = true ∧ f.span.holds e.span = true

instance (e : Entry) (f : Format) : Decidable (e.Fits f) := inferInstanceAs (Decidable (_ ∧ _))

/-- The ranges from index `first` to index `last`, stored in one format. -/
structure FlatTable where
  format : Format
  first : Nat
  last : Nat
  deriving DecidableEq

namespace FlatTable

/-- How many ranges the table holds. -/
def count (t : FlatTable) : Nat := t.last - t.first + 1

/-- The first value of the first range, which offsets are relative to. -/
def base (t : FlatTable) (s : RangeStore) : UInt32 := (s.get t.first).low

/-- The entries in order. -/
def entries (t : FlatTable) (s : RangeStore) : List Entry :=
  (s.slice t.first t.last).map fun r => ⟨r.low - t.base s, r.span⟩

/-- Whether the format holds the offset of the last range and the span of every range. -/
def feasible (t : FlatTable) (s : RangeStore) : Bool :=
  t.format.base.holds ((s.get t.last).low - t.base s) &&
    (s.slice t.first t.last).all fun r => t.format.span.holds r.span

/-- Bytes of the table and of the base it needs. -/
def bytes (t : FlatTable) : Nat :=
  t.format.entrySize * t.count + if t.format.isRaw then 0 else Cost.baseSize

/-- The cost of the table, infinite unless it exists. -/
def cost (t : FlatTable) (s : RangeStore) : Cost :=
  if t.feasible s then ⟨saturate t.bytes, 0⟩ else Cost.infinite

end FlatTable

end RangeLookup
