import Mathlib.Order.Defs.LinearOrder
import RangeLookup.Cost

/-!
# The order of costs

Costs are in a linear order, and a comparison between two encodings respects it.

Sizes add up and depths do not, so `split` is not monotone field by field: a cheaper part may be a
deeper one. It is monotone in the order of costs (`split_le_split`) as long as the sizes stay below
the greatest word. Where they saturate, a smaller size is lost in the sum and the depth alone
decides, so the bound in the hypothesis is needed.
-/

namespace RangeLookup

namespace Cost

theorem lt_iff_le_not_le {a b : Cost} : a < b ↔ a ≤ b ∧ ¬ b ≤ a := by
  rw [lt_iff_rank_lt, le_iff_rank_le, le_iff_rank_le]
  omega

theorem compare_eq (a b : Cost) : compare a b = compareOfLessAndEq a b := by
  show (compareOfLessAndEq a.size b.size).then (compareOfLessAndEq a.depth b.depth) = _
  have hlt : a < b ↔ a.size < b.size ∨ a.size = b.size ∧ a.depth < b.depth := Iff.rfl
  have heq : a = b ↔ a.size = b.size ∧ a.depth = b.depth :=
    ⟨by rintro rfl; exact ⟨rfl, rfl⟩, fun h => ext h.1 h.2⟩
  simp only [compareOfLessAndEq, hlt, heq]
  by_cases h₁ : a.size < b.size
  · simp [h₁]
  · by_cases h₂ : a.size = b.size <;> simp [h₁, h₂]

/-- Costs are compared by size, then by depth. -/
instance : LinearOrder Cost where
  le_refl a := le_iff_rank_le.2 (Nat.le_refl _)
  le_trans a b c hab hbc :=
    le_iff_rank_le.2 (Nat.le_trans (le_iff_rank_le.1 hab) (le_iff_rank_le.1 hbc))
  lt_iff_le_not_ge _ _ := lt_iff_le_not_le
  le_antisymm a b hab hba :=
    rank_inj.1 (Nat.le_antisymm (le_iff_rank_le.1 hab) (le_iff_rank_le.1 hba))
  le_total a b := by rw [le_iff_rank_le, le_iff_rank_le]; exact Nat.le_total _ _
  toDecidableLE := inferInstance
  compare_eq_compareOfLessAndEq := compare_eq

theorem le_iff_toNat {a b : Cost} : a ≤ b ↔ a.size.toNat < b.size.toNat ∨
    a.size.toNat = b.size.toNat ∧ a.depth.toNat ≤ b.depth.toNat := by
  rw [UInt32.toNat_inj, ← UInt32.lt_iff_toNat_lt, ← UInt32.le_iff_toNat_le]
  rfl

/-- No other cost has the greatest word in both places. -/
theorem eq_infinite_iff {c : Cost} :
    c = infinite ↔ c.size.toNat = 4294967295 ∧ c.depth.toNat = 4294967295 := by
  constructor
  · rintro rfl
    exact ⟨rfl, rfl⟩
  · rintro ⟨size, depth⟩
    exact ext (UInt32.toNat_inj.1 size) (UInt32.toNat_inj.1 depth)

theorem isFinite_iff {c : Cost} : c.isFinite = true ↔ c ≠ infinite := by
  simp [isFinite]

/-- A size below the greatest word is that of an encoding that exists. -/
theorem ne_infinite_of_size_lt {c : Cost} (h : c.size.toNat < 4294967295) : c ≠ infinite := by
  rw [Ne, eq_infinite_iff]
  omega

/-- What costs no more than an encoding that exists is one that exists. -/
theorem ne_infinite_of_le {a b : Cost} (h : a ≤ b) (hb : b ≠ infinite) : a ≠ infinite := by
  rintro rfl
  exact hb (le_antisymm b.le_infinite h)

/-- The least of some costs does not depend on their order or on how often one occurs. -/
theorem least_eq_of_mem_iff {as bs : List Cost} (h : ∀ d, d ∈ as ↔ d ∈ bs) :
    least as = least bs := by
  apply le_antisymm
  · rw [le_least_iff]
    intro d hd
    exact least_le ((h d).2 hd)
  · rw [le_least_iff]
    intro d hd
    exact least_le ((h d).1 hd)

theorem split_eq_of_finite {a b : Cost} (ha : a ≠ infinite) (hb : b ≠ infinite) :
    split a b = ⟨saturate (splitSize + a.size.toNat + b.size.toNat),
      saturate (max a.depth.toNat b.depth.toNat + 1)⟩ := by
  rw [split, if_pos]
  simp [isFinite_iff, ha, hb]

/-- A comparison exists only between encodings that exist. -/
theorem finite_of_split {a b : Cost} (h : split a b ≠ infinite) : a ≠ infinite ∧ b ≠ infinite := by
  constructor
  · rintro rfl
    exact h (split_infinite_left b)
  · rintro rfl
    exact h (split_infinite_right a)

/-- A comparison does not exist if a side does not, or if both its size and its depth stop at the
greatest word. -/
theorem split_eq_infinite_iff {a b : Cost} :
    split a b = infinite ↔ a = infinite ∨ b = infinite ∨
      4294967295 ≤ splitSize + a.size.toNat + b.size.toNat ∧
        4294967295 ≤ max a.depth.toNat b.depth.toNat + 1 := by
  by_cases ha : a = infinite
  · simp [ha, split_infinite_left]
  by_cases hb : b = infinite
  · simp [hb, split_infinite_right]
  rw [split_eq_of_finite ha hb, eq_infinite_iff]
  simp only [toNat_saturate, ha, hb, false_or]
  omega

/-- A comparison between encodings that exist exists if its size or its depth stays below the
greatest word. -/
theorem split_ne_infinite_iff {a b : Cost} (ha : a ≠ infinite) (hb : b ≠ infinite) :
    split a b ≠ infinite ↔ splitSize + a.size.toNat + b.size.toNat < 4294967295 ∨
      max a.depth.toNat b.depth.toNat + 1 < 4294967295 := by
  rw [Ne, split_eq_infinite_iff]
  simp only [ha, hb, false_or]
  omega

/-- A comparison between encodings that exist exists. Where sizes saturate, the depth tells it from
the infinite cost. -/
theorem split_ne_infinite {a b : Cost} (ha : a ≠ infinite) (hb : b ≠ infinite)
    (hd : max a.depth.toNat b.depth.toNat + 1 < 4294967295) : split a b ≠ infinite :=
  (split_ne_infinite_iff ha hb).2 (.inr hd)

/-- Cheaper parts make a cheaper comparison, as long as the sizes of the dearer ones add up to a
word. -/
theorem split_le_split {a a' b b' : Cost} (ha : a ≤ a') (hb : b ≤ b')
    (h : a' = infinite ∨ b' = infinite ∨
      splitSize + a'.size.toNat + b'.size.toNat ≤ 4294967295) : split a b ≤ split a' b' := by
  by_cases hf : split a' b' = infinite
  · rw [hf]
    exact le_infinite _
  · obtain ⟨ha', hb'⟩ := finite_of_split hf
    have fits : splitSize + a'.size.toNat + b'.size.toNat ≤ 4294967295 :=
      (h.resolve_left ha').resolve_left hb'
    rw [split_eq_of_finite ha' hb',
      split_eq_of_finite (ne_infinite_of_le ha ha') (ne_infinite_of_le hb hb')]
    rw [le_iff_toNat] at ha hb ⊢
    simp only [toNat_saturate]
    omega

end Cost

end RangeLookup
