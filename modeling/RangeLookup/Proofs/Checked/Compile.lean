import RangeLookup.Proofs.Checked.Document
import RangeLookup.Proofs.Checked.Listing
import RangeLookup.Proofs.CostTable.Height
import RangeLookup.Proofs.Document.Denotation

/-!
# Compilation without a fault

Each step is plain on what the step before it leaves: reading leaves canonical ranges, the table for
them has a cell for each of their runs, and its tree covers them and is no higher than the binary
logarithm of how many they are, which stays below the width of an indentation
(`compile_eq_or_fault`). Nothing is asked of the document, the catalog, the ceiling or the kind of
listing.
-/

namespace RangeLookup

namespace Checked

/-- A tree that was found is listed without a fault. -/
theorem render_eq {s : RangeStore} {c : Catalog} {t : CostTable} {tree : Decision}
    (ht : CostTable.optimize s c = .ok t) (hn : 0 < s.size) (htree : t.tree = .ok tree)
    (kind : ListingKind) : render kind s.intervals tree = plain (kind.render s tree) := by
  have covers := (CostTable.chooses_of_tree ht htree).covers (Nat.zero_le _)
  cases kind with
  | symbolic =>
    have height : tree.height ≤ 31 := by
      apply (CostTable.height_tree_le ht hn htree).trans
      exact Nat.clog_le_of_le_pow s.size_le
    exact node_eq covers (by omega) (by omega) (Nat.le_refl 0)
  | assembly name => exact assembly_eq covers (by omega)

theorem size_pos_of_optimize {s : RangeStore} {c : Catalog} {t : CostTable}
    (ht : CostTable.optimize s c = .ok t) : 0 < s.size := by
  unfold CostTable.optimize at ht
  split at ht
  · cases ht
  · omega

/-- The tree for the ranges of a store is found without a fault. -/
theorem optimize_tree_eq (s : RangeStore) (c : Catalog) :
    (do (← optimize s.intervals c.formats).tree : Checked Decision) =
      plain ((CostTable.optimize s c).bind CostTable.tree) := by
  rw [optimize_eq]
  cases ht : CostTable.optimize s c with
  | error e => rfl
  | ok t =>
    have store := (CostTable.filled_optimize ht).store
    exact tree_eq (CostTable.sound_of_optimize ht) (by rw [store]; exact size_pos_of_optimize ht)

/-- The steps behind the document are plain for the ranges of a store. -/
theorem steps_eq (s : RangeStore) (c : Catalog) (kind : ListingKind) :
    (do
      let table ← optimize s.intervals c.formats
      let tree ← table.tree
      render kind s.intervals tree : Checked String) =
        plain ((CostTable.optimize s c).bind fun table => table.tree.bind (kind.render s)) := by
  have tree := optimize_tree_eq s c
  rw [← bind_assoc, tree]
  cases ht : CostTable.optimize s c with
  | error e => rfl
  | ok t =>
    simp only [Except.bind]
    cases htree : t.tree with
    | error e => rfl
    | ok tree => exact render_eq ht (size_pos_of_optimize ht) htree kind

/-- Compilation comes to the same listing, or to the same error, as it does without a fault, unless
the document has as many bytes as there are indices; even then only the number of a line can
fault. -/
theorem compile_eq_or_fault (document : Bytes) (c : Catalog) (ceiling : Nat) (kind : ListingKind) :
    compile document c ceiling kind = plain (RangeLookup.compile document c ceiling kind) ∨
      compile document c ceiling kind = fault .lineNumber ∧ indices ≤ document.length := by
  unfold compile
  rcases read_eq_or_fault document ceiling with same | ⟨faults, long⟩
  · left
    rw [same, RangeLookup.compile_eq]
    cases Document.read document ceiling with
    | error e => rfl
    | ok s => exact steps_eq s c kind
  · right
    rw [faults]
    exact ⟨rfl, long⟩

end Checked

/-- Compilation never faults: no sum of words or indices is too great, no difference lies below zero,
no conversion loses digits, no index is out of bounds and no assertion fails, whatever the document,
the catalog, the ceiling and the kind of listing. Only the number of a line could be too great, in a
document that no machine with such indices can hold. The steps are safe for every store, however it
came about: a range is pushed and measured without a fault, a store has at most half as many ranges
as there are words, and its table is filled and searched without a fault. -/
theorem compile_faultless :
    (∀ (document : Bytes) (c : Catalog) (ceiling : Nat) (kind : ListingKind),
      Checked.compile document c ceiling kind = Checked.plain (compile document c ceiling kind) ∨
        Checked.compile document c ceiling kind = Checked.fault .lineNumber ∧
          18446744073709551616 ≤ document.length) ∧
    (∀ (s : RangeStore) (r : Interval), Checked.push s.intervals r =
      Checked.plain (((s.push r).map RangeStore.intervals).mapError Error.interval)) ∧
    (∀ s : RangeStore, s.size ≤ 2147483648 ∧ ∀ r ∈ s.toList, Checked.span r = pure r.span) ∧
    ∀ (s : RangeStore) (c : Catalog),
      (do (← Checked.optimize s.intervals c.formats).tree : Checked Decision) =
        Checked.plain ((CostTable.optimize s c).bind CostTable.tree) := by
  refine ⟨Checked.compile_eq_or_fault, Checked.push_eq, fun s => ⟨s.size_le, ?_⟩, ?_⟩
  · intro r hr
    exact Checked.span_eq (s.toList_canonical.ordered r hr)
  · exact Checked.optimize_tree_eq

theorem compile_faultless_overlapping :
    Checked.compile Document.overlapping .standard 2 .symbolic =
        Checked.plain (compile Document.overlapping .standard 2 .symbolic) ∧
      Document.overlappingRanges.size = 2 ∧
      Checked.span ⟨0x41, 0x7B⟩ = pure 0x3A := by
  obtain ⟨compiles, -, stores, -⟩ := compile_faultless
  refine ⟨?_, rfl, ?_⟩
  · have length : Document.overlapping.length = 40 := by cbv
    exact (compiles _ _ _ _).resolve_right fun h => absurd h.2 (by rw [length]; decide)
  · exact (stores Document.overlappingRanges).2 ⟨0x41, 0x7B⟩ (by decide)

end RangeLookup
