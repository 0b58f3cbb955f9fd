import RangeLookup.Proofs.CostTable.Agreement
import RangeLookup.Proofs.CostTable.Feasible
import RangeLookup.Proofs.Listing.Failure
import RangeLookup.Proofs.RangeStore.Translation

/-!
# Cost tables of moved ranges

Where ranges lie does not matter, only how far apart they are. Offsets and spans are all that a flat
table stores, and they are what moved ranges keep (`FlatTable.entries_translation`); so tables exist
for moved ranges where they did before and cost the same. From there on nothing looks at a bound:
the cells agree, the same tree is chosen, and the packed data of its tables are the same line for
line (`translation_invariant`). What does change is the ranges that an error names, and the code
that compares with their starts.
-/

namespace RangeLookup

open RangeStore (Translation)

variable {c : Int} {s u : RangeStore}

namespace FlatTable

variable {t : FlatTable}

/-- Moved ranges have the same entries. -/
theorem entries_translation (h : Translation c s u) (hl : t.last < s.size) :
    t.entries u = t.entries s := by
  rw [entries, entries, RangeStore.slice_eq_map_get hl, RangeStore.slice_eq_map_get (h.size.symm ▸ hl),
    List.map_map, List.map_map]
  apply List.map_congr_left
  intro k hk
  rw [List.mem_range'_1] at hk
  have offset := h.low_sub_low hk.1 (j := k) (by omega)
  have span := h.span (i := k) (by omega)
  rw [Function.comp_apply, Function.comp_apply, base, base, offset, span]

theorem cost_translation (h : Translation c s u) (hle : t.first ≤ t.last) (hl : t.last < s.size) :
    t.cost u = t.cost s := by
  have exist : t.feasible u = t.feasible s := by
    rw [Bool.eq_iff_iff, feasible_iff_fits hle hl, feasible_iff_fits hle (h.size.symm ▸ hl),
      entries_translation h hl]
  rw [cost, cost, exist]

end FlatTable

theorem Catalog.holdsSpan_translation (catalog : Catalog) (h : Translation c s u) {k : Nat}
    (hk : k < s.size) : catalog.HoldsSpan (u.get k) ↔ catalog.HoldsSpan (s.get k) := by
  rw [HoldsSpan, HoldsSpan, h.span hk]

/-- Moved ranges have the same data section, or one that stops at the same entry for the same
reason. -/
theorem Listing.Assembly.data_translation (h : Translation c s u) (name : String) (tree : Decision)
    (hl : ∀ t ∈ tree.leaves, t.last < s.size) : data name u tree = data name s tree := by
  have tables : tree.leaves.map (table u) = tree.leaves.map (table s) := by
    apply List.map_congr_left
    intro t ht
    rw [table, table, FlatTable.entries_translation h (hl t ht)]
  rw [data, data, tables]

namespace CostTable

variable {catalog : Catalog} {t v : CostTable} {tree : Decision}

theorem agrees_of_translation (h : Translation c s u) (hn : 0 < s.size)
    (ht : optimize s catalog = .ok t) (hv : optimize u catalog = .ok v) :
    t.Agrees v 0 (s.size - 1) := by
  have size := h.size
  apply agrees_of_optimize ht hv (by omega) (by omega)
  intro f first last hle hl
  exact (FlatTable.cost_translation (t := ⟨f, first, last⟩) h hle (by show last < s.size; omega)).symm

/-- Where the ranges have a tree, the moved ranges have the same. -/
theorem tree_translation (h : Translation c s u) (hn : 0 < s.size) (ht : optimize s catalog = .ok t)
    (hv : optimize u catalog = .ok v) (htree : t.tree = .ok tree) : v.tree = .ok tree := by
  have agrees := agrees_of_translation h hn ht hv
  have total : v.total = t.total := by
    rw [total_eq ht, total_eq hv, h.size]
    exact (agrees.cost 0 (s.size - 1) (Nat.zero_le _) (Nat.le_refl _)).symm
  have chosen := agrees.chooses (Nat.zero_le _) (Nat.le_refl _) (chooses_of_tree ht htree)
  rw [Decision.shift_zero] at chosen
  rw [tree_eq_ok_iff hv (total ▸ isFinite_of_tree htree), h.size]
  exact chosen

/-- Where the ranges have no tree, the moved ranges have none because of the range at the same
index. -/
theorem infeasible_translation (h : Translation c s u) (hn : 0 < s.size)
    (ht : optimize s catalog = .ok t) (hv : optimize u catalog = .ok v) {e : Error}
    (he : t.tree = .error e) :
    ∃ k < s.size, t.tree = .error (.infeasible k (s.get k)) ∧
      v.tree = .error (.infeasible k ((s.get k).translate c)) := by
  obtain ⟨infinite, -⟩ := (tree_eq_error_iff ht hn).1 he
  obtain ⟨k, hk, spanless, before⟩ := exists_first_spanless ((total_eq_infinite_iff ht hn).1 infinite)
  have same := fun j (hj : j < s.size) => catalog.holdsSpan_translation h hj
  have hk' : k < u.size := h.size.symm ▸ hk
  have spanless' : ¬ catalog.HoldsSpan (u.get k) := mt (same k hk).1 spanless
  have before' : ∀ j < k, catalog.HoldsSpan (u.get j) :=
    fun j hj => (same j (hj.trans hk)).2 (before j hj)
  have infinite' : v.total = Cost.infinite :=
    (total_eq_infinite_iff hv (Nat.zero_lt_of_lt hk')).2 ⟨k, hk', spanless'⟩
  refine ⟨k, hk, ?_, ?_⟩
  · rw [tree_eq_error_iff ht hn]
    exact ⟨infinite, infeasible_eq ht hk spanless before⟩
  · rw [tree_eq_error_iff hv (Nat.zero_lt_of_lt hk'), ← h.get hk]
    exact ⟨infinite', infeasible_eq hv hk' spanless' before'⟩

/-- Ranges may be moved along the number line as far as their bounds stay words. They are canonical
where they come to lie, and for every catalog each of their runs costs what it cost before. They have
the same tree as before or none because of the range at the same index. Under every name the data
section of a tree over them has the same lines, and stops where it did if it did, for the same
reason. -/
theorem translation_invariant (s : RangeStore) (c : Int) (hn : 0 < s.size)
    (hm : ∀ r ∈ s.toList, r.Movable c) :
    Canonical (s.toList.map (Interval.translate c)) ∧
    ∃ u, RangeStore.ofList (s.toList.map (Interval.translate c)) = .ok u ∧
      (∀ catalog, ∃ t v, optimize s catalog = .ok t ∧ optimize u catalog = .ok v ∧
        (∀ first last, first ≤ last → last < s.size → v.cost first last = t.cost first last) ∧
        ((∃ tree, t.tree = .ok tree ∧ v.tree = .ok tree ∧
            ∀ name, Listing.Assembly.data name u tree = Listing.Assembly.data name s tree) ∨
          ∃ k < s.size, t.tree = .error (.infeasible k (s.get k)) ∧
            v.tree = .error (.infeasible k ((s.get k).translate c)))) ∧
      ∀ name tree, (∀ table ∈ tree.leaves, table.last < s.size) →
        Listing.Assembly.data name u tree = Listing.Assembly.data name s tree := by
  obtain ⟨u, built, moved⟩ := RangeStore.exists_translation hm
  have data := Listing.Assembly.data_translation moved
  refine ⟨s.toList_canonical.translate hm, u, built, ?_, data⟩
  intro catalog
  obtain ⟨t, ht⟩ := exists_optimize catalog hn
  obtain ⟨v, hv⟩ := exists_optimize (s := u) catalog (moved.size.symm ▸ hn)
  refine ⟨t, v, ht, hv, ?_, ?_⟩
  · intro first last hle hl
    exact ((agrees_of_translation moved hn ht hv).cost first last hle (by omega)).symm
  · cases htree : t.tree with
    | ok tree =>
      left
      refine ⟨tree, rfl, tree_translation moved hn ht hv htree, ?_⟩
      intro name
      apply data
      intro table ht'
      exact (leaves_of_tree ht hn htree table ht').2.1
    | error e =>
      right
      rw [← htree]
      exact infeasible_translation moved hn ht hv htree

/-- The values that are far apart, with the last of them moved to the greatest word. -/
theorem translation_invariant_farApart :
    0 < farApart.size ∧ (∀ r ∈ farApart.toList, r.Movable 0xFFFBFFFF) ∧
      ∃ u, RangeStore.ofList [⟨0xFFFBFFFF, 0xFFFBFFFF⟩, ⟨0xFFFDFFFF, 0xFFFDFFFF⟩,
          ⟨0xFFFFFFFF, 0xFFFFFFFF⟩] = .ok u ∧
        (∃ v, optimize u wordsOnly = .ok v ∧ v.tree = .ok farApartTree) ∧
        ∀ name, Listing.Assembly.data name u farApartTree =
          Listing.Assembly.data name farApart farApartTree := by
  have movable : ∀ r ∈ farApart.toList, r.Movable 0xFFFBFFFF := by decide
  obtain ⟨-, u, built, tables, data⟩ := translation_invariant farApart 0xFFFBFFFF (by decide) movable
  obtain ⟨t, v, ht, hv, -, trees⟩ := tables wordsOnly
  refine ⟨by decide, movable, u, built, ⟨v, hv, ?_⟩, ?_⟩
  · have found := tree_farApart ht
    rcases trees with ⟨tree, htree, same, -⟩ | ⟨k, -, fails, -⟩
    · cases found.symm.trans htree
      exact same
    · cases found.symm.trans fails
  · intro name
    apply data
    simp only [farApartTree, Decision.leaves_split, Decision.leaves_leaf]
    decide

end CostTable

end RangeLookup
