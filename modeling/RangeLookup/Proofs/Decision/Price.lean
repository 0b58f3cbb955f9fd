import Mathlib
import RangeLookup.Decision.Shape
import RangeLookup.Proofs.Cost.Order

/-!
# The cost of a tree and its parts

A tree costs the sizes of its tables and eight bytes a split, up to the greatest word
(`size_cost_eq_min`), and is as deep as it is high (`depth_cost_eq`). A range takes at most twenty
bytes, twelve for an entry of its own and eight for a comparison (`size_cost_le`), so while the
bound on the ranges keeps that within a word nothing saturates (`size_cost_eq`).

A tree of tables that exist has a cost of its own even where sizes do saturate (`cost_ne_infinite`):
what tells it from the infinite cost is then the depth, which stays below the number of ranges.
-/

namespace RangeLookup

namespace FlatTable

variable {s : RangeStore} {t : FlatTable}

/-- A table that exists costs its bytes and no comparison. -/
theorem cost_of_finite (h : t.cost s ≠ Cost.infinite) : t.cost s = ⟨saturate t.bytes, 0⟩ := by
  unfold cost at h ⊢
  split at h
  · next hf => rw [if_pos hf]
  · exact absurd rfl h

theorem depth_cost (h : t.cost s ≠ Cost.infinite) : (t.cost s).depth.toNat = 0 := by
  rw [cost_of_finite h]
  rfl

theorem bytes_le (t : FlatTable) : t.bytes ≤ 8 * t.count + 4 := by
  have entries := Nat.mul_le_mul_right t.count t.format.entrySize_le
  unfold bytes Cost.baseSize
  split <;> omega

theorem size_cost_le (h : t.cost s ≠ Cost.infinite) :
    (t.cost s).size.toNat ≤ 8 * t.count + 4 := by
  have bytes := t.bytes_le
  have word := toNat_saturate t.bytes
  rw [cost_of_finite h]
  show (saturate t.bytes).toNat ≤ _
  omega

end FlatTable

/-- The bytes of tables and of the comparisons between them. -/
def cuttingSize (s : RangeStore) (tables : List FlatTable) : Nat :=
  (tables.map fun t => (t.cost s).size.toNat).sum + 8 * (tables.length - 1)

theorem cuttingSize_append (s : RangeStore) {front back : List FlatTable} (hf : 0 < front.length)
    (hb : 0 < back.length) : cuttingSize s (front ++ back) =
      8 + cuttingSize s front + cuttingSize s back := by
  simp only [cuttingSize, List.map_append, List.sum_append, List.length_append]
  omega

namespace Decision

variable {s : RangeStore} {tree : Decision} {first last : Nat}

theorem length_leaves_pos (tree : Decision) : 0 < tree.leaves.length := by
  rw [length_leaves]
  omega

theorem Covers.height_le (h : tree.Covers first last) : tree.height ≤ last - first := by
  induction tree generalizing first last with
  | leaf table => exact Nat.zero_le _
  | split pivot left right ihl ihr =>
    obtain ⟨hle, hlt, hcl, hcr⟩ := h
    have left_le := ihl hcl
    have right_le := ihr hcr
    rw [height]
    omega

/-- A tree that exists is made of tables that exist. -/
theorem leaves_finite (h : tree.cost s ≠ Cost.infinite) :
    ∀ t ∈ tree.leaves, t.cost s ≠ Cost.infinite := by
  induction tree with
  | leaf table =>
    intro t ht
    rw [leaves_leaf, List.mem_singleton] at ht
    rw [ht]
    exact h
  | split pivot left right ihl ihr =>
    obtain ⟨hl, hr⟩ := Cost.finite_of_split h
    intro t ht
    rw [leaves_split, List.mem_append] at ht
    exact ht.elim (ihl hl t) (ihr hr t)

theorem depth_cost_le (h : tree.cost s ≠ Cost.infinite) :
    (tree.cost s).depth.toNat ≤ tree.height := by
  induction tree with
  | leaf table => exact Nat.le_of_eq (FlatTable.depth_cost h)
  | split pivot left right ihl ihr =>
    obtain ⟨hl, hr⟩ := Cost.finite_of_split h
    have left_le := ihl hl
    have right_le := ihr hr
    rw [cost, Cost.split_eq_of_finite hl hr, height]
    simp only [toNat_saturate]
    omega

/-- A tree of tables that exist exists, even where its size saturates. -/
theorem cost_ne_infinite (hc : tree.Covers first last) (hb : last - first < 4294967295)
    (hf : ∀ t ∈ tree.leaves, t.cost s ≠ Cost.infinite) : tree.cost s ≠ Cost.infinite := by
  induction tree generalizing first last with
  | leaf table => exact hf table (by simp)
  | split pivot left right ihl ihr =>
    obtain ⟨hle, hlt, hcl, hcr⟩ := hc
    have hl : left.cost s ≠ Cost.infinite := by
      apply ihl hcl (by omega)
      intro t ht
      exact hf t (by simp [ht])
    have hr : right.cost s ≠ Cost.infinite := by
      apply ihr hcr (by omega)
      intro t ht
      exact hf t (by simp [ht])
    have left_depth := (depth_cost_le hl).trans hcl.height_le
    have right_depth := (depth_cost_le hr).trans hcr.height_le
    -- the sizes may both be the greatest word here, so only the depths keep the cost finite
    exact Cost.split_ne_infinite hl hr (by omega)

/-- A range takes twenty bytes at most: an entry and a base of its own, and a comparison. -/
theorem size_cost_le (hc : tree.Covers first last) (h : tree.cost s ≠ Cost.infinite) :
    (tree.cost s).size.toNat + Cost.splitSize ≤ 20 * (last + 1 - first) := by
  induction tree generalizing first last with
  | leaf table =>
    obtain ⟨rfl, rfl, hle⟩ := hc
    have bound := FlatTable.size_cost_le h
    unfold FlatTable.count at bound
    rw [cost, Cost.splitSize]
    omega
  | split pivot left right ihl ihr =>
    obtain ⟨hle, hlt, hcl, hcr⟩ := hc
    obtain ⟨hl, hr⟩ := Cost.finite_of_split h
    have left_le := ihl hcl hl
    have right_le := ihr hcr hr
    rw [cost, Cost.split_eq_of_finite hl hr]
    simp only [toNat_saturate]
    omega

/-- The size of a tree is that of its leaves and of the comparisons between them, or the greatest
word. -/
theorem size_cost_eq_min (h : tree.cost s ≠ Cost.infinite) :
    (tree.cost s).size.toNat = min (cuttingSize s tree.leaves) 4294967295 := by
  induction tree with
  | leaf table =>
    have word := (table.cost s).size.toNat_lt
    simp [cuttingSize, cost]
    omega
  | split pivot left right ihl ihr =>
    obtain ⟨hl, hr⟩ := Cost.finite_of_split h
    rw [leaves_split, cuttingSize_append s left.length_leaves_pos right.length_leaves_pos,
      cost, Cost.split_eq_of_finite hl hr, toNat_saturate, ihl hl, ihr hr, Cost.splitSize]
    omega

/-- The size of a tree is its bytes, or the greatest word. -/
theorem size_cost_eq_min_bytes (h : tree.cost s ≠ Cost.infinite) :
    (tree.cost s).size.toNat = min tree.bytes 4294967295 := by
  induction tree with
  | leaf table =>
    rw [cost, FlatTable.cost_of_finite h]
    exact toNat_saturate _
  | split pivot left right ihl ihr =>
    obtain ⟨hl, hr⟩ := Cost.finite_of_split h
    rw [cost, Cost.split_eq_of_finite hl hr, toNat_saturate, ihl hl, ihr hr, bytes]
    omega

theorem size_cost_eq (hc : tree.Covers first last) (hb : 20 * (last + 1 - first) ≤ 4294967296)
    (h : tree.cost s ≠ Cost.infinite) : (tree.cost s).size.toNat = cuttingSize s tree.leaves := by
  have size := size_cost_eq_min h
  have bound := size_cost_le hc h
  unfold Cost.splitSize at bound
  omega

theorem depth_cost_eq (hc : tree.Covers first last) (hb : last - first < 4294967295)
    (h : tree.cost s ≠ Cost.infinite) : (tree.cost s).depth.toNat = tree.height := by
  induction tree generalizing first last with
  | leaf table => exact FlatTable.depth_cost h
  | split pivot left right ihl ihr =>
    have bound := hc.height_le
    obtain ⟨hle, hlt, hcl, hcr⟩ := hc
    obtain ⟨hl, hr⟩ := Cost.finite_of_split h
    have fits : (split pivot left right).height ≤ 4294967295 := by omega
    rw [cost, Cost.split_eq_of_finite hl hr, toNat_saturate, ihl hcl (by omega) hl,
      ihr hcr (by omega) hr]
    rw [height] at fits ⊢
    exact Nat.min_eq_left fits

end Decision

end RangeLookup
