import RangeLookup.Proofs.CostTable.Choice

/-!
# What a cost table holds while it is filled

`sweep` is the table after some of the runs, and `reads` the cells that the cell of a run is
computed from (`candidates_congr`). Every cell that has been computed holds the least cost of its
run, then and at every later time (`cost_sweep`), so a cell that is read has its final value and
keeps it.
-/

namespace RangeLookup

namespace CostTable

/-- The table after the runs that are done. -/
def sweep (s : RangeStore) (c : Catalog) (done : List (Nat × Nat)) : CostTable :=
  done.foldl fill (blank s c)

variable {s : RangeStore} {c : Catalog} {t u : CostTable} {done front back : List (Nat × Nat)}
  {run cell : Nat × Nat}

/-- Nothing but the cells it reads decides what the cell of a run becomes. -/
theorem candidates_congr (store : t.store = u.store) (catalog : t.catalog = u.catalog)
    (same : ∀ cell ∈ reads run, t.cost cell.1 cell.2 = u.cost cell.1 cell.2) :
    min (t.minTableCost run.1 run.2) (t.minSplitCost run.1 run.2) =
      min (u.minTableCost run.1 run.2) (u.minSplitCost run.1 run.2) := by
  have own : ∀ cell ∈ reads run, u.cost cell.1 cell.2 = u.cost cell.1 cell.2 := fun _ _ => rfl
  rw [candidates_eq_of_reads same, candidates_eq_of_reads own, store, catalog]

theorem filled_sweep (h : done <+: fillOrder s.size) : Filled s c done (sweep s c done) := by
  obtain ⟨rest, order⟩ := h
  have all : fillOrder s.size = [] ++ done ++ rest := by rw [← order, List.nil_append]
  exact (filled_blank s c).foldl all

/-- A cell that has been computed holds the least cost of its run. -/
theorem cost_sweep (h : done <+: fillOrder s.size) (hm : cell ∈ done) :
    (sweep s c done).cost cell.1 cell.2 = leastCost s c cell.1 cell.2 :=
  (filled_sweep h).cell _ _ hm

theorem optimize_eq_sweep (c : Catalog) (hn : 0 < s.size) :
    optimize s c = .ok (sweep s c (fillOrder s.size)) := by
  rw [optimize, if_neg (by omega)]
  rfl

/-- Every cell of a filled table is what exhaustive search gives for its run. While the table is
filled, a run finds all that it reads computed before it, with the values that these cells have in
the end and at every time until then; and what it computes from them is the value that its own cell
has in the end. -/
theorem cost_eq_exhaustive (s : RangeStore) (c : Catalog) (hn : 0 < s.size) :
    ∃ t, optimize s c = .ok t ∧ t = sweep s c (fillOrder s.size) ∧
      (∀ first last, first ≤ last → last < s.size →
        t.cost first last = leastCost s c first last) ∧
      ∀ front run back, fillOrder s.size = front ++ run :: back →
        (∀ cell ∈ reads run, cell ∈ front ∧
          ∀ done, front <+: done → done <+: fillOrder s.size →
            (sweep s c done).cost cell.1 cell.2 = t.cost cell.1 cell.2) ∧
        ∀ u : CostTable, u.store = s → u.catalog = c →
          (∀ cell ∈ reads run, u.cost cell.1 cell.2 = (sweep s c front).cost cell.1 cell.2) →
          min (u.minTableCost run.1 run.2) (u.minSplitCost run.1 run.2) = t.cost run.1 run.2 := by
  have whole := optimize_eq_sweep c hn
  have final : ∀ cell ∈ fillOrder s.size,
      (sweep s c (fillOrder s.size)).cost cell.1 cell.2 = leastCost s c cell.1 cell.2 :=
    fun cell => cost_sweep (List.prefix_refl _)
  refine ⟨_, whole, rfl, ?_, ?_⟩
  · intro first last hle hl
    exact cost_eq_leastCost whole hle hl
  · intro front run back order
    have before : front <+: fillOrder s.size := ⟨run :: back, order.symm⟩
    have filled := filled_sweep (c := c) before
    constructor
    · intro cell hm
      have computed := mem_front_of_mem_reads order hm
      refine ⟨computed, ?_⟩
      intro done later within
      rw [cost_sweep within (later.subset computed), final cell (before.subset computed)]
    · intro u store catalog same
      have listed : run ∈ fillOrder s.size := by simp [order]
      rw [final run listed, candidates_congr (store.trans filled.store.symm)
        (catalog.trans filled.catalog.symm) same]
      exact filled.candidates_eq fun cell => mem_front_of_mem_reads order

theorem cost_eq_exhaustive_farApart :
    0 < farApart.size ∧ ∃ t, optimize farApart wordsOnly = .ok t ∧
      (∀ first last, first ≤ last → last < 3 →
        t.cost first last = leastCost farApart wordsOnly first last) ∧
      fillOrder 3 = [(0, 0), (1, 1), (2, 2), (0, 1)] ++ (1, 2) :: [(0, 2)] ∧
      reads (1, 2) = [(1, 1), (2, 2)] ∧
      ∀ done, [(0, 0), (1, 1), (2, 2), (0, 1)] <+: done → done <+: fillOrder 3 →
        (sweep farApart wordsOnly done).cost 2 2 = t.cost 2 2 := by
  obtain ⟨t, ht, -, cells, steps⟩ := cost_eq_exhaustive farApart wordsOnly (by decide)
  have order : fillOrder 3 = [(0, 0), (1, 1), (2, 2), (0, 1)] ++ (1, 2) :: [(0, 2)] := by decide
  obtain ⟨-, kept⟩ := (steps _ _ _ order).1 (2, 2) (by decide)
  exact ⟨by decide, t, ht, cells, order, by decide, kept⟩

end CostTable

end RangeLookup
