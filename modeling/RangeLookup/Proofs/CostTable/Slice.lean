import RangeLookup.Proofs.CostTable.Agreement
import RangeLookup.Proofs.CostTable.Optimal
import RangeLookup.Proofs.RangeStore.OfList

/-!
# A part of the ranges on its own

Flat tables cost the same for the store built from a part as they do within the whole, at indices
higher by that of the first range of the part (`cost_of_slice`). So the two cost tables agree on the
part, although they differ in size and in the order in which their cells are filled. A node of the
cheapest tree is chosen for its run, hence also by the cost table of the store built from that run:
the node is the tree of that store, moved to the indices of its run.
-/

namespace RangeLookup

/-- A run costs as much in a flat table of its own store as in one of the whole. -/
theorem FlatTable.cost_of_slice {s u : RangeStore} {i j a b : Nat} (h : u.toList = s.slice i j)
    (hj : j < s.size) (f : Format) (hab : a ≤ b) (hb : b + i ≤ j) :
    (FlatTable.mk f a b).cost u = (FlatTable.mk f (a + i) (b + i)).cost s := by
  have ranges := RangeStore.slice_of_slice (a := a) h hj hb
  have start := RangeStore.get_of_slice (a := a) h hj (by omega)
  have stop := RangeStore.get_of_slice h hj hb
  have bytes : (FlatTable.mk f a b).bytes = (FlatTable.mk f (a + i) (b + i)).bytes := by
    simp only [FlatTable.bytes, count, Nat.add_sub_add_right]
  have exist : (FlatTable.mk f a b).feasible u = (FlatTable.mk f (a + i) (b + i)).feasible s := by
    simp only [feasible, base, ranges, start, stop]
  rw [cost, cost, bytes, exist]

namespace Decision

variable {s : RangeStore} {tree node : Decision}

/-- What is below a tree that exists exists. -/
theorem subtrees_finite (h : tree.cost s ≠ Cost.infinite) (hm : node ∈ tree.subtrees) :
    node.cost s ≠ Cost.infinite := by
  induction tree with
  | leaf table =>
    rw [subtrees, List.mem_singleton] at hm
    rw [hm]
    exact h
  | split pivot left right ihl ihr =>
    rw [subtrees, List.mem_cons, List.mem_append] at hm
    obtain ⟨hl, hr⟩ := Cost.finite_of_split h
    rcases hm with rfl | hm | hm
    · exact h
    · exact ihl hl hm
    · exact ihr hr hm

end Decision

namespace CostTable

variable {s u : RangeStore} {c : Catalog} {t v : CostTable} {tree node : Decision}
  {first last i j : Nat}

/-- What stands below a chosen tree is chosen for a run of its own. -/
theorem Chooses.of_mem_subtrees (h : t.Chooses tree first last) (hle : first ≤ last)
    (hm : node ∈ tree.subtrees) : ∃ a b, t.Chooses node a b ∧ a ≤ b ∧ b ≤ last := by
  induction tree generalizing first last with
  | leaf table =>
    rw [Decision.subtrees, List.mem_singleton] at hm
    rw [hm]
    exact ⟨first, last, h, hle, Nat.le_refl _⟩
  | split pivot left right ihl ihr =>
    rw [Decision.subtrees, List.mem_cons, List.mem_append] at hm
    rcases hm with rfl | hm | hm
    · exact ⟨first, last, h, hle, Nat.le_refl _⟩
    · obtain ⟨hp, hl, -⟩ := h
      obtain ⟨a, b, chosen, ordered, upper⟩ := ihl hl hp.le hm
      exact ⟨a, b, chosen, ordered, upper.trans hp.lt.le⟩
    · obtain ⟨hp, -, hr⟩ := h
      exact ihr hr hp.lt hm

theorem agrees_of_slice (ht : optimize s c = .ok t) (hv : optimize u c = .ok v)
    (h : u.toList = s.slice i j) (hij : i ≤ j) (hj : j < s.size) : v.Agrees t i (j - i) := by
  have size := RangeStore.size_of_slice h hj
  refine agrees_of_optimize hv ht (by omega) (by omega) ?_
  intro f a b hab hb
  exact FlatTable.cost_of_slice h hj f hab (by omega)

/-- The tree that a table chooses for a run with an encoding is the tree of the store built from the
run, moved to the indices of the run. -/
theorem Chooses.eq_shift (ht : optimize s c = .ok t) (hv : optimize u c = .ok v)
    (h : u.toList = s.slice i j) (hij : i ≤ j) (hj : j < s.size) (hc : t.Chooses node i j)
    (hfin : t.cost i j ≠ Cost.infinite) :
    ∃ alone, v.tree = .ok alone ∧ node = alone.shift i := by
  have size := RangeStore.size_of_slice h hj
  have agrees := agrees_of_slice ht hv h hij hj
  have stop : u.size - 1 = j - i := by omega
  have total : v.total = t.cost i j := by
    rw [total_eq hv, stop, agrees.cost 0 (j - i) (Nat.zero_le _) (Nat.le_refl _), Nat.zero_add,
      Nat.sub_add_cancel hij]
  have finite : v.total.isFinite = true := by
    rw [total]
    exact Cost.isFinite_iff.2 hfin
  obtain ⟨alone, htree, chosen⟩ := exists_tree hv (by omega) finite
  rw [stop] at chosen
  have moved := agrees.chooses (Nat.zero_le _) (Nat.le_refl _) chosen
  rw [Nat.zero_add, Nat.sub_add_cancel hij] at moved
  exact ⟨alone, htree, hc.unique moved⟩

/-- A part of the ranges costs in the whole what it costs in the store built from any part that
contains it. Every node of the cheapest tree covers a run, and is the cheapest tree of the store built
from that run, moved to the indices of the run. -/
theorem slice_independent (s : RangeStore) (c : Catalog) (hn : 0 < s.size) :
    ∃ t, optimize s c = .ok t ∧
      (∀ i j, i ≤ j → j < s.size →
        ∃ u v, RangeStore.ofList (s.slice i j) = .ok u ∧ optimize u c = .ok v ∧
          ∀ a b, i ≤ a → a ≤ b → b ≤ j → t.cost a b = v.cost (a - i) (b - i)) ∧
      ∀ tree, t.tree = .ok tree → ∀ node ∈ tree.subtrees,
        node.Covers node.first node.last ∧ node.last < s.size ∧
        ∃ u v, RangeStore.ofList (s.slice node.first node.last) = .ok u ∧ optimize u c = .ok v ∧
          ∃ alone, v.tree = .ok alone ∧ node = alone.shift node.first := by
  obtain ⟨t, ht⟩ := exists_optimize c hn
  have build : ∀ i j, i ≤ j → j < s.size →
      ∃ u v, RangeStore.ofList (s.slice i j) = .ok u ∧ optimize u c = .ok v := by
    intro i j hij hj
    obtain ⟨u, hu⟩ := RangeStore.exists_ofList (s.canonical_slice i j)
    have size := RangeStore.size_of_slice (RangeStore.ofList_eq_ok_iff.1 hu) hj
    obtain ⟨v, hv⟩ := exists_optimize (s := u) c (by omega)
    exact ⟨u, v, hu, hv⟩
  refine ⟨t, ht, ?_, ?_⟩
  · intro i j hij hj
    obtain ⟨u, v, hu, hv⟩ := build i j hij hj
    refine ⟨u, v, hu, hv, ?_⟩
    intro a b ha hab hb
    have agrees := agrees_of_slice ht hv (RangeStore.ofList_eq_ok_iff.1 hu) hij hj
    rw [agrees.cost (a - i) (b - i) (by omega) (by omega), Nat.sub_add_cancel ha,
      Nat.sub_add_cancel (ha.trans hab)]
  · intro tree htree node hm
    have chosen := chooses_of_tree ht htree
    have finite : tree.cost s ≠ Cost.infinite := by
      rw [chosen.cost_eq_total ht]
      exact Cost.isFinite_iff.1 (isFinite_of_tree htree)
    obtain ⟨a, b, hc, hab, hb⟩ := chosen.of_mem_subtrees (Nat.zero_le _) hm
    have covers := hc.covers hab
    have upper : b < s.size := by omega
    rw [covers.first_eq, covers.last_eq]
    obtain ⟨u, v, hu, hv⟩ := build a b hab upper
    have node_finite := Decision.subtrees_finite finite hm
    rw [hc.cost_of_optimize ht] at node_finite
    exact ⟨covers, upper, u, v, hu, hv,
      hc.eq_shift ht hv (RangeStore.ofList_eq_ok_iff.1 hu) hab upper node_finite⟩

theorem slice_independent_farApart :
    0 < farApart.size ∧ ∃ t, optimize farApart wordsOnly = .ok t ∧ t.tree = .ok farApartTree ∧
      (∃ u v, RangeStore.ofList [⟨0x20000, 0x20000⟩, ⟨0x40000, 0x40000⟩] = .ok u ∧
        optimize u wordsOnly = .ok v ∧ t.cost 1 2 = v.cost 0 1) ∧
      ∃ node ∈ farApartTree.subtrees, node.Covers 1 2 ∧
        ∃ u v, RangeStore.ofList [⟨0x20000, 0x20000⟩, ⟨0x40000, 0x40000⟩] = .ok u ∧
          optimize u wordsOnly = .ok v ∧
          ∃ alone, v.tree = .ok alone ∧ node = alone.shift 1 := by
  obtain ⟨t, ht, costs, nodes⟩ := slice_independent farApart wordsOnly (by decide)
  have htree := tree_farApart ht
  refine ⟨by decide, t, ht, htree, ?_, ?_⟩
  · obtain ⟨u, v, hu, hv, cells⟩ := costs 1 2 (by decide) (by decide)
    exact ⟨u, v, hu, hv, cells 1 2 (by decide) (by decide) (by decide)⟩
  · have below : Decision.split 1 (.leaf ⟨.words, 1, 1⟩) (.leaf ⟨.words, 2, 2⟩) ∈
        farApartTree.subtrees := by decide
    obtain ⟨covers, -, alone⟩ := nodes _ htree _ below
    exact ⟨_, below, covers, alone⟩

end CostTable

end RangeLookup
