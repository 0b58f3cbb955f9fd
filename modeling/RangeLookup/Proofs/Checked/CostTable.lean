import Mathlib
import RangeLookup.Checked.CostTable
import RangeLookup.Proofs.CostTable.Choice
import RangeLookup.Proofs.RangeStore.Get

/-!
# Cost tables without a fault

Cost tables are filled and read without a fault. The ranges of a store are upright and in order, so
no difference of their bounds lies below zero, and there are too few of them to lose a count in a
word. A table keeps the size and the shape that it is made with (`CostTable.Sound`), so that every
run of ranges has a cell; every run that is asked for lies within the run that asks for it.
-/

namespace RangeLookup

/-- A sum that stops at the greatest word stops there in two steps as well. -/
theorem saturate_saturate_add (m n : Nat) : saturate ((saturate m).toNat + n) = saturate (m + n) := by
  rw [← UInt32.toNat_inj]
  simp only [toNat_saturate]
  omega

namespace Checked

section Tables

variable {s : RangeStore} {f : Format} {first last k : Nat}

theorem span_eq {r : Interval} (h : r.low ≤ r.high) : span r = pure r.span := subWord_eq h

theorem holds_eq (w : Width) (v : UInt32) : holds w v = pure (w.holds v) := by
  have bits := w.le_thirtyTwo
  unfold holds
  split
  · rw [Width.holds_of_bits_eq (by omega)]
  · rw [bit_eq (by omega)]
    rfl

theorem entrySize_eq (f : Format) : entrySize f = pure f.entrySize := by
  have base := f.base.le_thirtyTwo
  have span := f.span.le_thirtyTwo
  have bits : ∀ n ≤ 32, (UInt32.ofNat n).toNat = n := fun n h =>
    UInt32.toNat_ofNat_of_lt' (Nat.lt_of_le_of_lt h (by decide))
  have sum : (UInt32.ofNat f.base.bits).toNat + (UInt32.ofNat f.span.bits).toNat < 4294967296 := by
    rw [bits _ base, bits _ span]
    omega
  unfold entrySize
  rw [wordOf_eq (by omega), pure_bind, wordOf_eq (by omega), pure_bind, addWord_eq sum, pure_bind,
    UInt32.toNat_add, Nat.mod_eq_of_lt sum, bits _ base, bits _ span]
  rfl

theorem element_store (h : k < s.size) : element s.intervals k = pure (s.get k) := by
  have hk : k < s.intervals.size := h
  rw [element_eq hk, RangeStore.get, Array.getD, dif_pos hk]
  rfl

theorem slice_store (hle : first ≤ last) (hl : last < s.size) :
    slice s.intervals first last = pure (s.slice first last) := slice_eq (by omega) hl

theorem span_slice (hl : last < s.size) : ∀ r ∈ s.slice first last, span r = pure r.span := by
  intro r hr
  obtain ⟨k, -, hk, rfl⟩ := (RangeStore.mem_slice_iff hl).1 hr
  exact span_eq (RangeStore.low_le_high (by omega))

/-- A run of ranges has a price without a fault. -/
theorem tableCost_eq (f : Format) (hle : first ≤ last) (hl : last < s.size) :
    tableCost s.intervals f first last = pure ((FlatTable.mk f first last).cost s) := by
  have store := s.size_le
  have count : (UInt32.ofNat (last - first + 1)).toNat = last - first + 1 :=
    UInt32.toNat_ofNat_of_lt' (Nat.lt_of_le_of_lt (by omega : _ ≤ 2147483648) (by decide))
  have spans : (s.slice first last).allM (fun r => do holds f.span (← span r)) =
      pure ((s.slice first last).all fun r => f.span.holds r.span) := by
    apply allM_eq_pure
    intro r hr
    rw [span_slice hl r hr, pure_bind, holds_eq]
  unfold tableCost FlatTable.cost FlatTable.feasible
  rw [assert_eq ⟨hle, hl⟩, pure_bind, element_store (by omega), pure_bind, element_store hl, pure_bind,
    subWord_eq (RangeStore.low_mono hle hl), pure_bind, holds_eq, pure_bind, FlatTable.base]
  cases f.base.holds ((s.get last).low - (s.get first).low) with
  | false => rfl
  | true =>
    rw [slice_store hle hl, pure_bind, spans, pure_bind]
    cases (s.slice first last).all fun r => f.span.holds r.span with
    | false => rfl
    | true =>
      rw [subIndex_eq hle, pure_bind, addIndex_eq (by omega), pure_bind,
        wordOf_eq (by omega), pure_bind, entrySize_eq, pure_bind, count]
      cases raw : f.isRaw <;> simp [FlatTable.bytes, FlatTable.count, raw, saturate_saturate_add]

-- ranges out of order have no offsets from the first of them
example : tableCost #[⟨5, 5⟩, ⟨3, 3⟩] .words 0 1 = fault .underflow := rfl

end Tables

end Checked

namespace CostTable

/-- There is a row for every range, as long as the runs that start there are many. -/
structure Sound (t : CostTable) : Prop where
  size : t.size = t.store.size
  shaped : t.cells.WellShaped

theorem sound_blank (s : RangeStore) (c : Catalog) : (blank s c).Sound where
  size := Triangle.size_replicate _ _
  shaped := Triangle.wellShaped_replicate _ _

theorem Sound.fill {t : CostTable} (h : t.Sound) (run : Nat × Nat) : (t.fill run).Sound where
  size := (Triangle.size_set _ _ _ _).trans h.size
  shaped := h.shaped.set _ _ _

theorem sound_of_optimize {s : RangeStore} {c : Catalog} {t : CostTable}
    (h : optimize s c = .ok t) : t.Sound where
  size := (filled_optimize h).size.trans (congrArg RangeStore.size (filled_optimize h).store.symm)
  shaped := (filled_optimize h).shaped

theorem Sound.row_lt {t : CostTable} (h : t.Sound) {first : Nat} (hf : first < t.store.size) :
    first < t.cells.rows.size := Nat.lt_of_lt_of_eq hf h.size.symm

theorem Sound.cell_lt {t : CostTable} (h : t.Sound) {first last : Nat} (hle : first ≤ last)
    (hl : last < t.store.size) (row : first < t.cells.rows.size) :
    last - first < t.cells.rows[first].size := by
  have cells := h.shaped first
  rw [Array.getD, dif_pos row] at cells
  have size : t.cells.rows[first].size = t.size - first := cells
  rw [size, h.size]
  omega

/-- The table without the knowledge of its shape. -/
def raw (t : CostTable) : Checked.Table := ⟨t.store.intervals, t.catalog.formats, t.cells.rows⟩

end CostTable

namespace Checked

open CostTable

/-- A cell is set in its row, and the row in the table. -/
theorem set_set_eq_modify {α : Type} {rows : Array (Array α)} {i j : Nat} (hi : i < rows.size)
    (hj : j < rows[i].size) (a : α) :
    rows.set i (rows[i].set j a) = rows.modify i fun row => row.setIfInBounds j a := by
  apply Array.ext
  · simp
  · intro k hk _
    rw [Array.getElem_set, Array.getElem_modify]
    split
    · next same =>
      subst same
      rw [Array.setIfInBounds_def, dif_pos hj]
    · rfl

section Cells

variable {t : CostTable} {first pivot last : Nat} (h : t.Sound)

include h

/-- Every run of the ranges has a cell. -/
theorem cost_eq (hle : first ≤ last) (hl : last < t.store.size) :
    t.raw.cost first last = pure (t.cost first last) := by
  have row := h.row_lt (Nat.lt_of_le_of_lt hle hl)
  have cell := h.cell_lt hle hl row
  unfold Table.cost CostTable.cost Triangle.getD raw
  rw [element_eq row, pure_bind, subIndex_eq hle, pure_bind, element_eq cell]
  simp [Array.getD, row, cell]

-- a row that is too short has no cell for the run
example : Table.cost ⟨#[], [], #[#[.infinite]]⟩ 0 1 = fault .outOfBounds := rfl

theorem total_eq (hn : 0 < t.store.size) : t.raw.total = pure t.total := by
  have size : t.cells.rows.size = t.store.size := h.size
  have rows : subIndex t.raw.rows.size 1 = pure (t.size - 1) := subIndex_eq (by
    show 1 ≤ t.cells.rows.size
    omega)
  rw [Table.total, rows, pure_bind, h.size]
  rw [cost_eq h (Nat.zero_le _) (by omega), CostTable.total, h.size]

theorem splitCost_eq (hle : first ≤ pivot) (hlt : pivot < last) (hl : last < t.store.size) :
    t.raw.splitCost first pivot last = pure (t.splitCost first pivot last) := by
  have store := t.store.size_le
  unfold Table.splitCost CostTable.splitCost
  rw [assert_eq ⟨hle, hlt⟩, pure_bind, cost_eq h hle (by omega), pure_bind,
    addIndex_eq (by omega), pure_bind, cost_eq h (by omega) hl, pure_bind]

theorem minSplitCost_eq (hl : last < t.store.size) :
    t.raw.minSplitCost first last = pure (t.minSplitCost first last) := by
  have splits : (pivots first last).mapM (fun pivot => t.raw.splitCost first pivot last) =
      pure ((pivots first last).map fun pivot => t.splitCost first pivot last) := by
    apply mapM_eq_pure
    intro pivot hp
    obtain ⟨hle, hlt⟩ := mem_pivots.1 hp
    exact splitCost_eq h hle hlt hl
  rw [Table.minSplitCost, splits]
  rfl

omit h in
theorem minTableCost_eq (hle : first ≤ last) (hl : last < t.store.size) :
    t.raw.minTableCost first last = pure (t.minTableCost first last) := by
  have tables : t.raw.formats.mapM (fun f => tableCost t.raw.ranges f first last) =
      pure (t.catalog.formats.map fun f => t.tableCost f first last) := by
    apply mapM_eq_pure
    intro f _
    exact tableCost_eq f hle hl
  rw [Table.minTableCost, tables]
  rfl

/-- A cell is filled without a fault. -/
theorem fill_eq {run : Nat × Nat} (hle : run.1 ≤ run.2) (hl : run.2 < t.store.size) :
    t.raw.fill run = pure (t.fill run).raw := by
  have row := h.row_lt (Nat.lt_of_le_of_lt hle hl)
  have cell := h.cell_lt hle hl row
  rw [Table.fill, minTableCost_eq hle hl, pure_bind, minSplitCost_eq h hl, pure_bind]
  unfold raw
  rw [element_eq row, pure_bind, subIndex_eq hle, pure_bind, replace_eq cell, pure_bind,
    replace_eq row, pure_bind, set_set_eq_modify row cell]
  rfl

/-- The cells of runs are filled one after the other without a fault. -/
theorem foldlM_fill_eq {runs : List (Nat × Nat)}
    (inside : ∀ run ∈ runs, run.1 ≤ run.2 ∧ run.2 < t.store.size) :
    runs.foldlM Table.fill t.raw = pure (runs.foldl CostTable.fill t).raw := by
  induction runs generalizing t with
  | nil => rfl
  | cons run rest ih =>
    rw [List.forall_mem_cons] at inside
    obtain ⟨⟨hle, hl⟩, tail⟩ := inside
    rw [List.foldlM_cons, fill_eq h hle hl, pure_bind, List.foldl_cons]
    exact ih (h.fill run) tail

theorem infeasible_eq (hn : 0 < t.store.size) : t.raw.infeasible = fail t.infeasible := by
  have size : t.raw.rows.size = t.size := rfl
  have found : (List.range t.raw.rows.size).findM? (fun i => do
      return !(← t.raw.cost i i).isFinite) =
        pure ((List.range t.size).find? fun i => !(t.cost i i).isFinite) := by
    rw [size]
    apply findM?_eq_pure
    intro i hi
    rw [List.mem_range, h.size] at hi
    rw [cost_eq h (Nat.le_refl _) hi, pure_bind]
  have index : ((List.range t.size).find? fun i => !(t.cost i i).isFinite).getD 0 <
      t.store.size := by
    cases hf : (List.range t.size).find? fun i => !(t.cost i i).isFinite with
    | none => exact hn
    | some i =>
      have listed := List.mem_of_find?_eq_some hf
      rw [List.mem_range, h.size] at listed
      exact listed
  have ranges : t.raw.ranges = t.store.intervals := rfl
  unfold Table.infeasible CostTable.infeasible
  simp only [found, ranges, element_store index, pure_bind]

omit h in
theorem cheapestFormat?_eq (hle : first ≤ last) (hl : last < t.store.size) :
    t.raw.cheapestFormat? (t.cost first last) first last = pure (t.cheapestFormat? first last) := by
  apply findM?_eq_pure
  intro f _
  rw [show t.raw.ranges = t.store.intervals from rfl, tableCost_eq f hle hl, pure_bind]
  rfl

theorem cheapestPivot?_eq (hl : last < t.store.size) :
    t.raw.cheapestPivot? (t.cost first last) first last = pure (t.cheapestPivot? first last) := by
  apply findM?_eq_pure
  intro pivot hp
  obtain ⟨lower, upper⟩ := mem_pivots.1 hp
  rw [splitCost_eq h lower upper hl, pure_bind]

/-- The tree of a run is found without a fault: a pivot lies within the run it divides. -/
theorem treeOver_eq (hle : first ≤ last) (hl : last < t.store.size) :
    t.raw.treeOver first last = plain (t.treeOver first last) := by
  induction hn : last - first using Nat.strong_induction_on generalizing first last with
  | _ n ih =>
    rw [Table.treeOver, cost_eq h hle hl, pure_bind, cheapestFormat?_eq hle hl, pure_bind]
    rcases t.choice_cases first last with ⟨f, hf⟩ | ⟨pivot, hp⟩ | ⟨hf, hp⟩
    · rw [treeOver_of_format hf, cheapestFormat?_eq_some_iff.2 hf]
      rfl
    · have store := t.store.size_le
      have lower := hp.le
      have upper := hp.lt
      have left := ih (pivot - first) (by omega) lower (by omega) rfl
      have right := ih (last - (pivot + 1)) (by omega) upper hl rfl
      have next : addIndex pivot 1 = pure (pivot + 1) := addIndex_eq (by omega)
      have found := (cheapestPivot?_eq_some_iff hp.noFormat).2 hp
      rw [treeOver_of_pivot hp, cheapestFormat?_eq_none_iff.2 hp.noFormat]
      simp only [cheapestPivot?_eq h hl, pure_bind, found]
      rw [dif_pos ⟨lower, upper⟩, left, next, right]
      simp only [plain_bind, pure_bind]
      rfl
    · rw [treeOver_of_none hf hp, cheapestFormat?_eq_none_iff.2 hf]
      simp only [cheapestPivot?_eq h hl, pure_bind, hp]
      exact infeasible_eq h (by omega)

/-- The tree for all ranges is found without a fault. -/
theorem tree_eq (hn : 0 < t.store.size) : t.raw.tree = plain t.tree := by
  have rows : subIndex t.raw.rows.size 1 = pure (t.size - 1) :=
    subIndex_eq (Nat.lt_of_lt_of_eq hn h.size.symm)
  unfold Table.tree CostTable.tree
  rw [total_eq h hn, pure_bind]
  split
  · rw [rows, pure_bind, h.size]
    exact treeOver_eq h (Nat.zero_le _) (by omega)
  · exact infeasible_eq h hn

end Cells

section Optimize

variable (s : RangeStore) (c : Catalog)

theorem fillOrder_eq {n : Nat} (hn : n ≤ 18446744073709551616) :
    fillOrder n = pure (RangeLookup.fillOrder n) := by
  have diagonal : ∀ length ∈ List.range n,
      (do (List.range (← subIndex n length)).mapM fun first =>
        return (first, ← addIndex first length) : Checked (List (Nat × Nat))) =
          pure ((List.range (n - length)).map fun first => (first, first + length)) := by
    intro length hlength
    rw [List.mem_range] at hlength
    rw [subIndex_eq (by omega), pure_bind]
    apply mapM_eq_pure
    intro first hfirst
    rw [List.mem_range] at hfirst
    rw [addIndex_eq (by omega), pure_bind]
  rw [fillOrder, mapM_eq_pure diagonal, pure_bind, RangeLookup.fillOrder, List.flatMap_def]

theorem blank_eq : Table.blank s.intervals c.formats = pure (CostTable.blank s c).raw := by
  have row : ∀ first ∈ List.range s.intervals.size,
      (do return Array.replicate (← subIndex s.intervals.size first) Cost.infinite :
        Checked (Array Cost)) = pure (Array.replicate (s.size - first) Cost.infinite) := by
    intro first hfirst
    rw [List.mem_range] at hfirst
    rw [subIndex_eq (by omega), pure_bind]
    rfl
  have rows : ((List.range s.intervals.size).map fun first =>
      Array.replicate (s.size - first) Cost.infinite).toArray =
        (Triangle.replicate s.size Cost.infinite).rows := by
    apply Array.ext
    · simp [Triangle.replicate, RangeStore.size]
    · intro i hi _
      simp [Triangle.replicate]
  rw [Table.blank, mapM_eq_pure row, pure_bind, rows]
  rfl

/-- A table is filled without a fault, and its total is there to be read. -/
theorem optimize_eq :
    optimize s.intervals c.formats = plain ((CostTable.optimize s c).map CostTable.raw) := by
  have size : s.intervals.size = s.size := rfl
  by_cases hn : s.size = 0
  · rw [optimize, size, if_pos hn, CostTable.optimize, if_pos hn]
    rfl
  · have table : CostTable.optimize s c =
        .ok ((RangeLookup.fillOrder s.size).foldl CostTable.fill (blank s c)) := if_neg hn
    have sound := sound_of_optimize table
    have store := (filled_optimize table).store
    have inside : ∀ run ∈ RangeLookup.fillOrder s.size, run.1 ≤ run.2 ∧ run.2 < s.size :=
      fun run => mem_fillOrder.1
    rw [optimize, size, if_neg hn, fillOrder_eq (s.size_le.trans (by decide)), pure_bind, blank_eq, pure_bind,
      foldlM_fill_eq (sound_blank s c) inside, pure_bind, table]
    rw [total_eq sound (by rw [store]; omega)]
    rfl

end Optimize

end Checked

end RangeLookup
