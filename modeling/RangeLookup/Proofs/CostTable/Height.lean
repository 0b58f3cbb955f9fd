import RangeLookup.Proofs.CostTable.Feasible

/-!
# How high the cheapest trees are

A finite cell is no deeper than the binary logarithm of the length of its run, rounded up
(`depth_le_clog`), and so is its tree, whatever the sizes. Where the size of a cell is no greatest
word, the tables of its tree can be put into a balanced tree of the same size. Where it is, that
argument fails, since the order of costs no longer sees the tables; but then a split into halves has
the same size, and by induction the halves are low.
-/

namespace RangeLookup

namespace CostTable

variable {s : RangeStore} {c : Catalog} {t : CostTable} {tree : Decision} {first last : Nat}

/-- A cell whose size is no greatest word is as deep as a balanced tree over the tables of its
tree. -/
theorem depth_le_clog_of_size_lt (ht : optimize s c = .ok t) (hle : first ≤ last)
    (hl : last < s.size) (hs : (t.cost first last).size.toNat < 4294967295) :
    (t.cost first last).depth.toNat ≤ Nat.clog 2 (last + 1 - first) := by
  have finite := Cost.ne_infinite_of_size_lt hs
  obtain ⟨tree, chosen⟩ := exists_chooses ht hle hl finite
  have encoding := chosen.encoding ht hle
  have tiles := encoding.covers.tiles
  obtain ⟨balanced, covers, leaves, height⟩ :=
    Decision.exists_balanced tiles tree.length_leaves_pos
  have cell := chosen.cost_of_optimize ht
  rw [← cell] at hs finite
  have balanced_finite : balanced.cost s ≠ Cost.infinite := by
    have store := s.size_le
    apply Decision.cost_ne_infinite covers (by omega)
    rw [leaves]
    exact Decision.leaves_finite finite
  have same : (balanced.cost s).size.toNat = (tree.cost s).size.toNat := by
    rw [Decision.size_cost_eq_min finite, Decision.size_cost_eq_min balanced_finite, leaves]
  have least : t.cost first last ≤ balanced.cost s := by
    rw [cost_eq_leastCost ht hle hl]
    exact Decision.leastCost_le_of_size_lt ⟨covers, leaves ▸ encoding.formats⟩ (by omega)
  have depth := Decision.depth_cost_le balanced_finite
  have few : Nat.clog 2 tree.leaves.length ≤ Nat.clog 2 (last + 1 - first) := by
    have length := tiles.le
    exact Nat.clog_mono_right 2 (by omega)
  rw [← cell, Cost.le_iff_toNat] at least
  rw [← cell]
  omega

/-- A finite cell is no deeper than the halving of its run. -/
theorem depth_le_clog (ht : optimize s c = .ok t) (hle : first ≤ last) (hl : last < s.size)
    (hfin : t.cost first last ≠ Cost.infinite) :
    (t.cost first last).depth.toNat ≤ Nat.clog 2 (last + 1 - first) := by
  induction hn : last - first using Nat.strong_induction_on generalizing first last with
  | _ n ih =>
    by_cases single : first = last
    · have depth := depth_cost_le ht hle hl hfin
      omega
    have spans : ∀ k, first ≤ k → k ≤ last → c.HoldsSpan (s.get k) := by
      intro k hf hk
      by_contra spanless
      exact hfin ((cost_eq_infinite_iff ht hle hl).2 ⟨k, hf, hk, spanless⟩)
    obtain ⟨pivot, hp⟩ : ∃ pivot, pivot = first + (last - first) / 2 := ⟨_, rfl⟩
    have left : t.cost first pivot ≠ Cost.infinite :=
      cost_ne_infinite ht (by omega) (by omega) fun k hf hk => spans k hf (by omega)
    have right : t.cost (pivot + 1) last ≠ Cost.infinite :=
      cost_ne_infinite ht (by omega) hl fun k hf hk => spans k (by omega) hk
    have left_depth := ih (pivot - first) (by omega) (by omega) (by omega) left rfl
    have right_depth := ih (last - (pivot + 1)) (by omega) (by omega) hl right rfl
    have le : t.cost first last ≤ Cost.split (t.cost first pivot) (t.cost (pivot + 1) last) := by
      rw [cost_eq_leastCost ht hle hl, cost_eq_leastCost ht (by omega) (by omega),
        cost_eq_leastCost ht (by omega) hl]
      exact Decision.leastCost_le_split (by omega) (by omega)
    rw [Cost.split_eq_of_finite left right, Cost.le_iff_toNat] at le
    simp only [toNat_saturate] at le
    rcases le with smaller | ⟨-, depth⟩
    · exact depth_le_clog_of_size_lt ht hle hl (by omega)
    · have halves : Nat.clog 2 (last + 1 - first) = Nat.clog 2 ((last + 1 - first + 1) / 2) + 1 :=
        Nat.clog_of_two_le one_lt_two (by omega)
      have left_le : Nat.clog 2 (pivot + 1 - first) ≤ Nat.clog 2 ((last + 1 - first + 1) / 2) :=
        Nat.clog_mono_right 2 (by omega)
      have right_le : Nat.clog 2 (last + 1 - (pivot + 1)) ≤
          Nat.clog 2 ((last + 1 - first + 1) / 2) := Nat.clog_mono_right 2 (by omega)
      rw [halves]
      apply depth.trans
      apply (Nat.min_le_left _ _).trans
      exact Nat.succ_le_succ (max_le (left_depth.trans left_le) (right_depth.trans right_le))

/-- The tree of a table is as low as the halving of its ranges. -/
theorem height_tree_le (ht : optimize s c = .ok t) (hn : 0 < s.size) (htree : t.tree = .ok tree) :
    tree.height ≤ Nat.clog 2 s.size := by
  have finite := Cost.isFinite_iff.1 (isFinite_of_tree htree)
  have chosen := chooses_of_tree ht htree
  have covers := chosen.covers (Nat.zero_le _)
  have store := s.size_le
  rw [total_eq ht] at finite
  have depth := depth_le_clog ht (Nat.zero_le _) (by omega) finite
  rw [← chosen.cost_of_optimize ht] at finite depth
  rw [Decision.depth_cost_eq covers (by omega) finite, Nat.sub_add_cancel hn] at depth
  exact depth

end CostTable

end RangeLookup
