import RangeLookup.Interval

/-!
# The values of a list of ranges

Two ranges that overlap or touch are one range (`contains_merge`), and a canonical list is fixed by
its values (`canonical_unique`): the first range starts at the least of them and ends before the
first gap, since a free value follows each range.
-/

namespace RangeLookup

/-- Some range of the list holds the value. -/
def Covered (ranges : List Interval) (v : UInt32) : Prop := ∃ r ∈ ranges, r.Contains v

instance (ranges : List Interval) (v : UInt32) : Decidable (Covered ranges v) :=
  inferInstanceAs (Decidable (∃ r ∈ ranges, r.Contains v))

variable {v : UInt32}

@[simp] theorem covered_nil : Covered [] v ↔ False := by simp [Covered]

@[simp] theorem covered_cons {r : Interval} {rest : List Interval} :
    Covered (r :: rest) v ↔ r.Contains v ∨ Covered rest v := by simp [Covered]

@[simp] theorem covered_append {front back : List Interval} :
    Covered (front ++ back) v ↔ Covered front v ∨ Covered back v := by
  simp [Covered, or_and_right, exists_or]

theorem toNat_max (a b : UInt32) : (max a b).toNat = max a.toNat b.toNat := by
  show (if a ≤ b then b else a).toNat = _
  split <;> next h => rw [UInt32.le_iff_toNat_le] at h; omega

namespace Interval

theorem contains_iff {r : Interval} :
    r.Contains v ↔ r.low.toNat ≤ v.toNat ∧ v.toNat ≤ r.high.toNat := by
  rw [Contains, UInt32.le_iff_toNat_le, UInt32.le_iff_toNat_le]

/-- A range that starts within another one or directly after it makes one range with it. -/
theorem contains_merge {p r : Interval} (hl : p.low ≤ r.low)
    (hr : r.low.toNat ≤ p.high.toNat + 1) :
    (⟨p.low, max p.high r.high⟩ : Interval).Contains v ↔ p.Contains v ∨ r.Contains v := by
  rw [UInt32.le_iff_toNat_le] at hl
  simp only [contains_iff, toNat_max]
  omega

end Interval

namespace Canonical

variable {r q : Interval} {rest others : List Interval}

theorem of_cons (h : Canonical (r :: rest)) : Canonical rest :=
  ⟨fun q hq => h.ordered q (List.mem_cons_of_mem _ hq), (List.pairwise_cons.1 h.apart).2⟩

/-- The start of the first range is the least value. -/
theorem low_le (h : Canonical (r :: rest)) (hv : Covered (r :: rest) v) : r.low ≤ v := by
  rcases covered_cons.1 hv with hv | ⟨q, hq, hv⟩
  · exact hv.1
  · have apart := (List.pairwise_cons.1 h.apart).1 q hq
    have upright := UInt32.le_iff_toNat_le.1 (h.ordered r List.mem_cons_self)
    have inside := Interval.contains_iff.1 hv
    unfold Interval.Before at apart
    rw [UInt32.le_iff_toNat_le]
    omega

/-- A value beyond the first range by no more than one is in no other range either. -/
theorem not_covered_of_le (h : Canonical (r :: rest)) (hv : v.toNat ≤ r.high.toNat + 1) :
    ¬ Covered rest v := by
  rintro ⟨q, hq, inside⟩
  have apart := (List.pairwise_cons.1 h.apart).1 q hq
  have low := (Interval.contains_iff.1 inside).1
  unfold Interval.Before at apart
  omega

theorem covered_low (h : Canonical (r :: rest)) : Covered (r :: rest) r.low :=
  covered_cons.2 (.inl ⟨UInt32.le_refl _, h.ordered r List.mem_cons_self⟩)

/-- A range that starts with the list and whose values the list holds ends no later than the first
range. -/
theorem high_le (h : Canonical (q :: others)) (low : r.low = q.low)
    (held : ∀ v, r.Contains v → Covered (q :: others) v) : r.high ≤ q.high := by
  rw [UInt32.le_iff_toNat_le]
  apply Nat.le_of_not_lt
  intro beyond
  -- the value after the first range is free, and would lie in the other one
  have next : (q.high + 1).toNat = q.high.toNat + 1 := by
    have word := r.high.toNat_lt
    rw [UInt32.toNat_add]
    simp only [UInt32.reduceToNat]
    omega
  have upright := UInt32.le_iff_toNat_le.1 (h.ordered q List.mem_cons_self)
  have inside : r.Contains (q.high + 1) := by
    rw [Interval.contains_iff, low, next]
    omega
  rcases covered_cons.1 (held _ inside) with here | there
  · have le := (Interval.contains_iff.1 here).2
    omega
  · exact h.not_covered_of_le (Nat.le_of_eq next) there

/-- The values of a canonical list after its first range. -/
theorem covered_rest_iff (h : Canonical (r :: rest)) :
    Covered rest v ↔ Covered (r :: rest) v ∧ ¬ r.Contains v := by
  constructor
  · intro hv
    refine ⟨covered_cons.2 (.inr hv), ?_⟩
    intro inside
    have high := (Interval.contains_iff.1 inside).2
    exact h.not_covered_of_le (by omega) hv
  · rintro ⟨hv, outside⟩
    exact (covered_cons.1 hv).resolve_left outside

end Canonical

/-- Canonical lists with the same values are the same. -/
theorem canonical_unique {a b : List Interval} (ha : Canonical a) (hb : Canonical b)
    (same : ∀ v, Covered a v ↔ Covered b v) : a = b := by
  induction a generalizing b with
  | nil =>
    cases b with
    | nil => rfl
    | cons q others => exact absurd ((same q.low).2 hb.covered_low) covered_nil.1
  | cons r rest ih =>
    cases b with
    | nil => exact absurd ((same r.low).1 ha.covered_low) covered_nil.1
    | cons q others =>
      have low : r.low = q.low :=
        UInt32.le_antisymm (ha.low_le ((same _).2 hb.covered_low))
          (hb.low_le ((same _).1 ha.covered_low))
      have high : r.high = q.high :=
        UInt32.le_antisymm
          (hb.high_le low fun v hv => (same v).1 (covered_cons.2 (.inl hv)))
          (ha.high_le low.symm fun v hv => (same v).2 (covered_cons.2 (.inl hv)))
      obtain rfl : r = q := by
        cases r; cases q
        simp only at low high
        rw [low, high]
      rw [ih ha.of_cons hb.of_cons]
      intro v
      rw [ha.covered_rest_iff, hb.covered_rest_iff, same v]

end RangeLookup
