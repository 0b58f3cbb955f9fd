import Mathlib
import RangeLookup.Proofs.Checked.CostTable

/-!
# The order of filling

The order in which the cells of a cost table are filled. It lists every run once and nothing else
(`count_fillOrder`), `n * (n + 1) / 2` runs in all (`length_fillOrder`), and which of two runs
stands first is told by their lengths, and by their first ranges where these are equal
(`lt_iff_precedes`). Both parts of a split are shorter than the run, so they stand before it.
-/

namespace RangeLookup

theorem Precedes.irrefl (run : Nat × Nat) : ¬ Precedes run run := by
  rintro (shorter | ⟨-, left⟩) <;> omega

theorem Precedes.asymm {a b : Nat × Nat} (h : Precedes a b) : ¬ Precedes b a := by
  unfold Precedes at *
  omega

theorem nodup_fillOrder (n : Nat) : (fillOrder n).Nodup := by
  apply (pairwise_fillOrder n).imp
  rintro a b before rfl
  exact Precedes.irrefl a before

theorem count_fillOrder (n : Nat) (run : Nat × Nat) :
    (fillOrder n).count run = if run.1 ≤ run.2 ∧ run.2 < n then 1 else 0 := by
  rw [(nodup_fillOrder n).count]
  simp only [mem_fillOrder]

/-- There are `n` runs of one range, one less of two, and so on down to the run of all. -/
theorem length_fillOrder (n : Nat) : (fillOrder n).length = n * (n + 1) / 2 := by
  have lengths : (fillOrder n).length = ((List.range n).map fun length => n - length).sum := by
    simp [fillOrder, List.length_flatMap]
  calc (fillOrder n).length
      = ∑ length ∈ Finset.range n, (n - length) := lengths
    _ = ∑ length ∈ Finset.range (n + 1), (n - length) := by
        rw [Finset.sum_range_succ, Nat.sub_self, Nat.add_zero]
    _ = ∑ length ∈ Finset.range (n + 1), length := Finset.sum_range_reflect id (n + 1)
    _ = n * (n + 1) / 2 := by rw [Finset.sum_range_id, Nat.add_sub_cancel, Nat.mul_comm]

section Position

variable {n p q : Nat} {a b : Nat × Nat}

theorem precedes_of_lt (ha : (fillOrder n)[p]? = some a) (hb : (fillOrder n)[q]? = some b)
    (h : p < q) : Precedes a b := by
  obtain ⟨hp, rfl⟩ := List.getElem?_eq_some_iff.1 ha
  obtain ⟨hq, rfl⟩ := List.getElem?_eq_some_iff.1 hb
  exact List.pairwise_iff_getElem.1 (pairwise_fillOrder n) p q hp hq h

/-- Of two runs in the order, the one that precedes stands at the lower place. -/
theorem lt_iff_precedes (ha : (fillOrder n)[p]? = some a) (hb : (fillOrder n)[q]? = some b) :
    p < q ↔ Precedes a b := by
  constructor
  · exact precedes_of_lt ha hb
  · intro before
    rcases Nat.lt_trichotomy p q with lt | rfl | gt
    · exact lt
    · obtain rfl : a = b := Option.some.inj (ha.symm.trans hb)
      exact (Precedes.irrefl a before).elim
    · exact absurd (precedes_of_lt hb ha gt) before.asymm

/-- What precedes a run of the order, and is a run of the same ranges, stands at a lower place. -/
theorem exists_lt_of_precedes (hb : (fillOrder n)[q]? = some b) (run : a.1 ≤ a.2 ∧ a.2 < n)
    (h : Precedes a b) : ∃ p < q, (fillOrder n)[p]? = some a := by
  obtain ⟨p, ha⟩ := List.mem_iff_getElem?.1 (mem_fillOrder.2 run)
  exact ⟨p, (lt_iff_precedes ha hb).2 h, ha⟩

end Position

/-- The cells are listed once each, shorter runs first and runs of one length from left to right, so
that a run finds both parts of each of its splits at lower places. No index that is computed for
the list is too great for a machine word, if the number of ranges is not. -/
theorem fillOrder_complete_and_ordered (n : Nat) :
    (∀ i j, (fillOrder n).count (i, j) = if i ≤ j ∧ j < n then 1 else 0) ∧
    (fillOrder n).length = n * (n + 1) / 2 ∧
    (∀ p q i j i' j' : Nat, (fillOrder n)[p]? = some (i, j) → (fillOrder n)[q]? = some (i', j') →
      (p < q ↔ j - i < j' - i' ∨ j - i = j' - i' ∧ i < i')) ∧
    (∀ p i j : Nat, (fillOrder n)[p]? = some (i, j) → ∀ k, i ≤ k → k < j →
      (∃ q < p, (fillOrder n)[q]? = some (i, k)) ∧
        ∃ q < p, (fillOrder n)[q]? = some (k + 1, j)) ∧
    (n ≤ 18446744073709551615 → Checked.fillOrder n = pure (fillOrder n)) := by
  refine ⟨fun i j => count_fillOrder n (i, j), length_fillOrder n, ?_, ?_, ?_⟩
  · intro p q i j i' j' hp hq
    exact lt_iff_precedes hp hq
  · intro p i j hp k hik hkj
    obtain ⟨-, upper⟩ := mem_fillOrder.1 (List.mem_of_getElem? hp)
    have left : Precedes (i, k) (i, j) := .inl (by omega)
    have right : Precedes (k + 1, j) (i, j) := .inl (by omega)
    exact ⟨exists_lt_of_precedes hp ⟨hik, by omega⟩ left,
      exists_lt_of_precedes hp ⟨hkj, upper⟩ right⟩
  · intro word
    exact Checked.fillOrder_eq (by omega)

theorem fillOrder_complete_and_ordered_four :
    (fillOrder 4).count (1, 3) = 1 ∧ (fillOrder 4).length = 10 ∧
      (fillOrder 4)[9]? = some (0, 3) ∧ (fillOrder 4)[8]? = some (1, 3) ∧
      (8 < 9 ↔ 3 - 1 < 3 - 0 ∨ 3 - 1 = 3 - 0 ∧ 1 < 0) ∧
      (∃ q < 9, (fillOrder 4)[q]? = some (0, 1)) ∧ (∃ q < 9, (fillOrder 4)[q]? = some (2, 3)) ∧
      Checked.fillOrder 4 = pure (fillOrder 4) := by
  obtain ⟨once, length, places, parts, words⟩ := fillOrder_complete_and_ordered 4
  have whole : (fillOrder 4)[9]? = some (0, 3) := by decide
  have shorter : (fillOrder 4)[8]? = some (1, 3) := by decide
  obtain ⟨left, right⟩ := parts 9 0 3 whole 1 (by decide) (by decide)
  exact ⟨once 1 3, length, whole, shorter, places 8 9 1 3 0 3 shorter whole, left, right,
    words (by decide)⟩

end RangeLookup
