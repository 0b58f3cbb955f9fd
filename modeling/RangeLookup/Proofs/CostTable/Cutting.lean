import RangeLookup.Proofs.CostTable.Optimal
import RangeLookup.Proofs.Lookup

/-!
# The optimum as a cutting

The search goes over trees, yet what it finds depends on the sequence of tables alone: the size of a
tree is that of its leaves and of one comparison between each two, so the least size is that of the
cheapest cutting of all ranges into tables. Any cutting is the leaf sequence of a tree that is as
low as so many tables allow (`Cutting.exists_tree`). A tree that is cheapest in size and then in
depth is therefore balanced, and its depth is that of the cheapest cutting with the fewest levels.
-/

namespace RangeLookup

/-- The tables cut the ranges of the store into runs, each in a format of the catalog that can hold
it. -/
structure Cutting (s : RangeStore) (c : Catalog) (tables : List FlatTable) : Prop where
  tiles : Tiles tables 0 s.size
  formats : ∀ t ∈ tables, t.format ∈ c.formats
  finite : ∀ t ∈ tables, (t.cost s).isFinite = true

section Trees

variable {s : RangeStore} {c : Catalog} {tree : Decision} {tables : List FlatTable}

/-- The leaves of a tree that exists are a cutting. -/
theorem Decision.Encoding.cutting (h : tree.Encoding c 0 (s.size - 1)) (hn : 0 < s.size)
    (hfin : tree.cost s ≠ Cost.infinite) : Cutting s c tree.leaves where
  tiles := h.covers.tiles_all hn
  formats := h.formats
  finite t ht := Cost.isFinite_iff.2 (Decision.leaves_finite hfin t ht)

/-- Every cutting is the leaf sequence of a balanced tree. -/
theorem Cutting.exists_tree (h : Cutting s c tables) (hn : 0 < s.size) :
    ∃ tree : Decision, tree.Encoding c 0 (s.size - 1) ∧ tree.leaves = tables ∧
      tree.height = Nat.clog 2 tables.length := by
  have tiles := h.tiles
  rw [← Nat.sub_add_cancel hn] at tiles
  have some_table : 0 < tables.length := by
    cases tables with
    | nil => cases tiles
    | cons t rest => simp
  obtain ⟨tree, hc, rfl, hh⟩ := Decision.exists_balanced tiles some_table
  exact ⟨tree, ⟨hc, h.formats⟩, rfl, hh⟩

end Trees

namespace CostTable

variable {s : RangeStore} {c : Catalog} {t : CostTable} {tree : Decision}
  {tables : List FlatTable}

/-- A tree that costs the total has the size of its leaves and is as deep as it is high. -/
theorem total_eq_of_tree (hn : 0 < s.size) (hs : 20 * s.size ≤ 4294967296)
    (hfin : t.total.isFinite = true) (henc : tree.Encoding c 0 (s.size - 1))
    (hcost : tree.cost s = t.total) :
    t.total.size.toNat = cuttingSize s tree.leaves ∧ t.total.depth.toNat = tree.height := by
  rw [← hcost] at hfin ⊢
  have finite := Cost.isFinite_iff.1 hfin
  exact ⟨Decision.size_cost_eq henc.covers (by omega) finite,
    Decision.depth_cost_eq henc.covers (by omega) finite⟩

/-- No cutting is smaller than the total, and none of its size has fewer levels. -/
theorem total_le_cutting (ht : optimize s c = .ok t) (hn : 0 < s.size)
    (hs : 20 * s.size ≤ 4294967296) (h : Cutting s c tables) :
    t.total.size.toNat ≤ cuttingSize s tables ∧
      (cuttingSize s tables = t.total.size.toNat →
        t.total.depth.toNat ≤ Nat.clog 2 tables.length) := by
  obtain ⟨tree, henc, rfl, hheight⟩ := h.exists_tree hn
  have finite : tree.cost s ≠ Cost.infinite := by
    apply Decision.cost_ne_infinite henc.covers (by omega)
    intro table hm
    exact Cost.isFinite_iff.1 (h.finite table hm)
  have size := Decision.size_cost_eq henc.covers (by omega) finite
  have depth := Decision.depth_cost_eq henc.covers (by omega) finite
  have le := cost_le_cost ht hs (by omega) henc
  rw [← total_eq ht, Cost.le_iff_toNat, size, depth, hheight] at le
  omega

/-- The total is the least size of a cutting, with the fewest levels of a cutting of that size, and
the tree is as low as a tree over its tables can be. -/
theorem total_eq_least_cutting (s : RangeStore) (c : Catalog) (hn : 0 < s.size)
    (hs : 20 * s.size ≤ 4294967296) :
    ∃ t, optimize s c = .ok t ∧ (t.total.isFinite = true →
      IsLeast {size | ∃ tables, Cutting s c tables ∧ cuttingSize s tables = size}
        t.total.size.toNat ∧
      IsLeast {depth | ∃ tables, Cutting s c tables ∧
          cuttingSize s tables = t.total.size.toNat ∧ Nat.clog 2 tables.length = depth}
        t.total.depth.toNat ∧
      ∃ tree, t.tree = .ok tree ∧ tree.height = Nat.clog 2 tree.leaves.length ∧
        (∀ other : Decision, other.leaves = tree.leaves → tree.height ≤ other.height) ∧
        ∀ v, tree.comparisons s v ≤ Nat.clog 2 tree.leaves.length) := by
  obtain ⟨t, ht⟩ := exists_optimize c hn
  refine ⟨t, ht, ?_⟩
  intro hfin
  obtain ⟨tree, htree, hc⟩ := exists_tree ht hn hfin
  have henc := hc.encoding ht (Nat.zero_le _)
  have hcost := hc.cost_eq_total ht
  have finite : tree.cost s ≠ Cost.infinite := by
    rw [hcost]
    exact Cost.isFinite_iff.1 hfin
  have cutting := henc.cutting hn finite
  obtain ⟨size, depth⟩ := total_eq_of_tree hn hs hfin henc hcost
  -- the tree is no higher than its leaves need, since they are themselves a cutting of least size
  have balanced : tree.height = Nat.clog 2 tree.leaves.length := by
    have upper := (total_le_cutting ht hn hs cutting).2 size.symm
    have lower := tree.clog_length_leaves_le
    omega
  refine ⟨⟨⟨tree.leaves, cutting, size.symm⟩, ?_⟩,
    ⟨⟨tree.leaves, cutting, size.symm, by omega⟩, ?_⟩, tree, htree, balanced, ?_, ?_⟩
  · rintro _ ⟨tables, htables, rfl⟩
    exact (total_le_cutting ht hn hs htables).1
  · rintro _ ⟨tables, htables, hsize, rfl⟩
    exact (total_le_cutting ht hn hs htables).2 hsize
  · intro other ho
    rw [balanced, ← ho]
    exact other.clog_length_leaves_le
  · intro v
    rw [← balanced]
    exact tree.comparisons_le_height s v

theorem total_eq_least_cutting_farApart :
    0 < farApart.size ∧ 20 * farApart.size ≤ 4294967296 ∧
      ∃ t, optimize farApart wordsOnly = .ok t ∧ t.total.isFinite = true ∧
        IsLeast {size | ∃ tables, Cutting farApart wordsOnly tables ∧
          cuttingSize farApart tables = size} t.total.size.toNat ∧
        IsLeast {depth | ∃ tables, Cutting farApart wordsOnly tables ∧
          cuttingSize farApart tables = t.total.size.toNat ∧
          Nat.clog 2 tables.length = depth} t.total.depth.toNat ∧
        ∃ tree, t.tree = .ok tree ∧ tree.height = Nat.clog 2 tree.leaves.length ∧
          (∀ other : Decision, other.leaves = tree.leaves → tree.height ≤ other.height) ∧
          ∀ v, tree.comparisons farApart v ≤ Nat.clog 2 tree.leaves.length := by
  obtain ⟨t, ht, h⟩ := total_eq_least_cutting farApart wordsOnly (by decide) (by decide)
  exact ⟨by decide, by decide, t, ht, finite_farApart ht, h (finite_farApart ht)⟩

end CostTable

end RangeLookup
