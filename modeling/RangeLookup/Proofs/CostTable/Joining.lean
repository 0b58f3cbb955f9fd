import RangeLookup.Proofs.CostTable.Cutting
import RangeLookup.Proofs.CostTable.Feasible

/-!
# Neighbouring tables of the cheapest tree

Two tables that follow each other in a cutting and have the same format can be put into one, where
the format holds the greater offsets; that saves a comparison and perhaps a base
(`cuttingSize_join_lt`). The tables of the cheapest tree are a cutting of least size, so no two
neighbours among them can be joined, wherever in the tree they stand. Offsets that are stored in
full always fit, so neighbours never share such a format.
-/

namespace RangeLookup

/-- The table for the ranges of two neighbours, in the format of the first. -/
def FlatTable.join (a b : FlatTable) : FlatTable := ⟨a.format, a.first, b.last⟩

variable {s : RangeStore} {c : Catalog} {a b : FlatTable} {front back : List FlatTable}

theorem Tiles.join {start stop : Nat} (h : Tiles (front ++ a :: b :: back) start stop) :
    Tiles (front ++ a.join b :: back) start stop := by
  rw [tiles_append] at h ⊢
  obtain ⟨middle, hfront, hf, hle, hnext, hlast, hback⟩ := h
  refine ⟨middle, hfront, hf, ?_, hback⟩
  show middle ≤ b.last
  omega

/-- The second of two neighbours starts after the first, and neither is empty. -/
theorem Tiles.neighbours {start stop : Nat} (h : Tiles (front ++ a :: b :: back) start stop) :
    a.first ≤ a.last ∧ b.first = a.last + 1 ∧ b.first ≤ b.last ∧ b.last < stop := by
  obtain ⟨-, first_le, -⟩ := h.bounds (t := a) (by simp)
  obtain ⟨-, second_le, inside⟩ := h.bounds (t := b) (by simp)
  obtain ⟨middle, -, -, -, next, -⟩ := tiles_append.1 h
  exact ⟨first_le, next, second_le, inside⟩

namespace FlatTable

/-- One table takes no more bytes than two. -/
theorem bytes_join_le (same : a.format = b.format) (ha : a.first ≤ a.last)
    (next : b.first = a.last + 1) (hb : b.first ≤ b.last) :
    (a.join b).bytes ≤ a.bytes + b.bytes := by
  have count : (a.join b).count = a.count + b.count := by
    simp only [FlatTable.count, join]
    omega
  have format : (a.join b).format = a.format := rfl
  rw [bytes, bytes, bytes, count, format, ← same, Nat.mul_add]
  omega

theorem size_cost_join_le (same : a.format = b.format) (ha : a.first ≤ a.last)
    (next : b.first = a.last + 1) (hb : b.first ≤ b.last) (fa : a.cost s ≠ Cost.infinite)
    (fb : b.cost s ≠ Cost.infinite) (fj : (a.join b).cost s ≠ Cost.infinite) :
    ((a.join b).cost s).size.toNat ≤ (a.cost s).size.toNat + (b.cost s).size.toNat := by
  have bytes := bytes_join_le same ha next hb
  rw [cost_of_finite fa, cost_of_finite fb, cost_of_finite fj]
  simp only [toNat_saturate]
  omega

/-- Neighbours that store their offsets in full can be joined. -/
theorem cost_join_ne_infinite (same : a.format = b.format) (raw : a.format.base.bits = 32)
    (next : b.first = a.last + 1) (hl : b.last < s.size) (ha : a.last < s.size)
    (fa : a.cost s ≠ Cost.infinite) (fb : b.cost s ≠ Cost.infinite) :
    (a.join b).cost s ≠ Cost.infinite := by
  rw [cost_ne_infinite_iff, feasible, Bool.and_eq_true, List.all_eq_true]
  constructor
  · exact Width.holds_of_bits_eq raw _
  · intro r hr
    obtain ⟨k, hf, hk, rfl⟩ := (RangeStore.mem_slice_iff hl).1 hr
    show a.format.span.holds (s.get k).span = true
    by_cases left : k ≤ a.last
    · exact holds_span fa ha ⟨hf, left⟩
    · rw [same]
      exact holds_span fb hl ⟨by omega, hk⟩

end FlatTable

/-- What holds of all tables and of two neighbours joined holds of all tables after joining. -/
theorem forall_mem_join {P : FlatTable → Prop} (all : ∀ t ∈ front ++ a :: b :: back, P t)
    (joined : P (a.join b)) : ∀ t ∈ front ++ a.join b :: back, P t := by
  simp only [List.mem_append, List.mem_cons] at all ⊢
  rintro t (hm | rfl | hm)
  · exact all t (.inl hm)
  · exact joined
  · exact all t (.inr (.inr (.inr hm)))

theorem Cutting.join (h : Cutting s c (front ++ a :: b :: back))
    (hfin : (a.join b).cost s ≠ Cost.infinite) : Cutting s c (front ++ a.join b :: back) where
  tiles := h.tiles.join
  formats := forall_mem_join h.formats (h.formats a (by simp))
  finite := forall_mem_join h.finite (Cost.isFinite_iff.2 hfin)

/-- A cutting gets smaller when two neighbours of one format are joined: a comparison falls away. -/
theorem Cutting.cuttingSize_join_lt (h : Cutting s c (front ++ a :: b :: back))
    (same : a.format = b.format) (hfin : (a.join b).cost s ≠ Cost.infinite) :
    cuttingSize s (front ++ a.join b :: back) < cuttingSize s (front ++ a :: b :: back) := by
  obtain ⟨ha, next, hb, -⟩ := h.tiles.neighbours
  have first_finite := Cost.isFinite_iff.1 (h.finite a (by simp))
  have second_finite := Cost.isFinite_iff.1 (h.finite b (by simp))
  have size := FlatTable.size_cost_join_le same ha next hb first_finite second_finite hfin
  simp only [cuttingSize, List.map_append, List.map_cons, List.sum_append,
    List.sum_cons, List.length_append, List.length_cons]
  omega

namespace CostTable

/-- No two neighbours among the tables of the cheapest tree have one format that could hold the
ranges of both in one table, and none have one that stores offsets in full. -/
theorem neighbours_not_joinable (s : RangeStore) (c : Catalog) (hn : 0 < s.size)
    (hs : 20 * s.size ≤ 4294967296) :
    ∃ t, optimize s c = .ok t ∧ (t.total.isFinite = true →
      ∃ tree, t.tree = .ok tree ∧
        ∀ front a b back, tree.leaves = front ++ a :: b :: back → a.format = b.format →
          t.tableCost a.format a.first b.last = Cost.infinite ∧ a.format.base.bits ≠ 32) := by
  obtain ⟨t, ht⟩ := exists_optimize c hn
  refine ⟨t, ht, ?_⟩
  intro hfin
  obtain ⟨tree, htree, hc⟩ := exists_tree ht hn hfin
  refine ⟨tree, htree, ?_⟩
  intro front a b back leaves same
  have henc := hc.encoding ht (Nat.zero_le _)
  have hcost := hc.cost_eq_total ht
  have cutting : Cutting s c (front ++ a :: b :: back) := by
    rw [← leaves]
    apply henc.cutting hn
    rw [hcost]
    exact Cost.isFinite_iff.1 hfin
  have infinite : (a.join b).cost s = Cost.infinite := by
    by_contra joinable
    -- the cutting with both in one table would be smaller than the least
    have smaller := cutting.cuttingSize_join_lt same joinable
    have least := (total_le_cutting ht hn hs (cutting.join joinable)).1
    have size := (total_eq_of_tree hn hs hfin henc hcost).1
    rw [leaves] at size
    omega
  constructor
  · rw [tableCost, (filled_optimize ht).store]
    exact infinite
  · intro raw
    obtain ⟨-, next, inside, stop⟩ := cutting.tiles.neighbours
    exact FlatTable.cost_join_ne_infinite same raw next stop (by omega)
      (Cost.isFinite_iff.1 (cutting.finite a (by simp)))
      (Cost.isFinite_iff.1 (cutting.finite b (by simp))) infinite

/-- The first two tables stand in different subtrees. -/
theorem neighbours_not_joinable_farApart :
    0 < farApart.size ∧ 20 * farApart.size ≤ 4294967296 ∧
      ∃ t, optimize farApart wordsOnly = .ok t ∧ t.total.isFinite = true ∧
        t.tree = .ok farApartTree ∧
        farApartTree.leaves = [] ++ ⟨.words, 0, 0⟩ :: ⟨.words, 1, 1⟩ :: [⟨.words, 2, 2⟩] ∧
        t.tableCost .words 0 1 = Cost.infinite ∧ Format.words.base.bits ≠ 32 := by
  obtain ⟨t, ht, h⟩ := neighbours_not_joinable farApart wordsOnly (by decide) (by decide)
  have hfin := finite_farApart ht
  obtain ⟨tree, htree, joinable⟩ := h hfin
  obtain rfl := Except.ok.inj (htree.symm.trans (tree_farApart ht))
  have leaves : farApartTree.leaves =
      [] ++ ⟨.words, 0, 0⟩ :: ⟨.words, 1, 1⟩ :: [⟨.words, 2, 2⟩] := by
    simp [farApartTree]
  obtain ⟨infinite, narrow⟩ := joinable [] _ _ _ leaves rfl
  exact ⟨by decide, by decide, t, ht, hfin, htree, leaves, infinite, narrow⟩

end CostTable

end RangeLookup
