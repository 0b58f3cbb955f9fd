import RangeLookup.Proofs.Cost.Order

/-!
# The cost of a comparison

It does not matter which side is which (`split_comm`), and a comparison between encodings that exist
costs more than either (`lt_split_left`), at any size: where the bytes stop at the greatest word,
the depth goes on. Only where both stop is there no comparison.

Cheaper sides make a cheaper comparison just where the bytes of the dearer sides and of the
comparison are a word (`forall_split_le_iff`). Beyond that a smaller side can be the dearer one: its
bytes are lost at the greatest word, and its depth is not.
-/

namespace RangeLookup

namespace Cost

variable {a b : Cost}

theorem split_comm (a b : Cost) : split a b = split b a := by
  unfold split
  rw [Bool.and_comm, Nat.max_comm]
  simp only [Nat.add_right_comm splitSize]

/-- A comparison between encodings that exist costs more than its left side. -/
theorem lt_split_left (ha : a ≠ infinite) (hb : b ≠ infinite) : a < split a b := by
  have size := a.size.toNat_lt
  have depth := a.depth.toNat_lt
  rw [lt_iff_not_ge, split_eq_of_finite ha hb, le_iff_toNat]
  -- below the greatest word the size grows by the comparison; at it, the depth has room to grow
  rw [Ne, eq_infinite_iff] at ha
  simp only [toNat_saturate, splitSize]
  omega

/-- A comparison between encodings that exist costs more than its right side. -/
theorem lt_split_right (ha : a ≠ infinite) (hb : b ≠ infinite) : b < split a b := by
  rw [split_comm]
  exact lt_split_left hb ha

/-- Where the bytes of the sides and of the comparison are more than a word, a byte less on the left
is lost in the sum, and with the greatest depth there no comparison exists. -/
theorem exists_le_split_eq_infinite (pos : 0 < a.size.toNat)
    (h : 4294967295 < splitSize + a.size.toNat + b.size.toNat) :
    ∃ a' ≤ a, split a' b = infinite := by
  have word := a.size.toNat_lt
  have size : (saturate (a.size.toNat - 1)).toNat = a.size.toNat - 1 := by
    rw [toNat_saturate]
    omega
  refine ⟨⟨saturate (a.size.toNat - 1), 4294967295⟩, ?_, ?_⟩
  · rw [le_iff_toNat, size]
    omega
  · rw [split_eq_infinite_iff, size]
    have depth : (4294967295 : UInt32).toNat = 4294967295 := rfl
    rw [depth]
    omega

/-- Sides that cost no more than these make no dearer comparison, exactly if the bytes of these and
of the comparison are a word, or no comparison between these exists. -/
theorem forall_split_le_iff :
    (∀ a' ≤ a, ∀ b' ≤ b, split a' b' ≤ split a b) ↔
      split a b = infinite ∨ splitSize + a.size.toNat + b.size.toNat ≤ 4294967295 := by
  constructor
  · intro mono
    by_cases finite : split a b = infinite
    · exact .inl finite
    refine .inr (Nat.le_of_not_lt fun exceeds => ?_)
    have not_above : ∀ a' ≤ a, ∀ b' ≤ b, split a' b' ≠ infinite := fun a' ha b' hb =>
      ne_infinite_of_le (mono a' ha b' hb) finite
    by_cases pos : 0 < a.size.toNat
    · obtain ⟨a', ha, split_infinite⟩ := exists_le_split_eq_infinite pos exceeds
      exact not_above a' ha b le_rfl split_infinite
    · -- the bytes are all on the right then, and the sides change places
      have right : 0 < b.size.toNat := by
        unfold splitSize at exceeds
        have word := b.size.toNat_lt
        omega
      obtain ⟨b', hb, split_infinite⟩ :=
        exists_le_split_eq_infinite (b := a) right (by omega)
      exact not_above a le_rfl b' hb (split_comm a b' ▸ split_infinite)
  · rintro (infinite | fits) a' ha b' hb
    · rw [infinite]
      exact le_infinite _
    · exact split_le_split ha hb (.inr (.inr fits))

/-- As long as the bytes of the dearer sides and of the comparison are a word, cheaper sides make a
cheaper comparison. Where they are less than the greatest word, sides that exist make a comparison
that exists, whichever of them is on the left, and it costs more than either. -/
theorem split_keeps_order_and_grows :
    (∀ a a' b b' : Cost, a ≤ a' → b ≤ b' →
      (a' = infinite ∨ b' = infinite ∨
        8 + a'.size.toNat + b'.size.toNat ≤ 4294967295) → split a b ≤ split a' b') ∧
    ∀ a b : Cost, a ≠ infinite → b ≠ infinite → 8 + a.size.toNat + b.size.toNat ≤ 4294967294 →
      split a b ≠ infinite ∧ split a b = split b a ∧ a < split a b ∧ b < split a b := by
  constructor
  · intro a a' b b' ha hb fits
    have dearer : split a' b' = infinite ∨
        splitSize + a'.size.toNat + b'.size.toNat ≤ 4294967295 := by
      rcases fits with rfl | rfl | fits
      · exact .inl (split_infinite_left b')
      · exact .inl (split_infinite_right a')
      · exact .inr fits
    exact forall_split_le_iff.2 dearer a ha b hb
  · intro a b ha hb fits
    have below : splitSize + a.size.toNat + b.size.toNat < 4294967295 := Nat.lt_succ_of_le fits
    exact ⟨(split_ne_infinite_iff ha hb).2 (.inl below), split_comm a b, lt_split_left ha hb,
      lt_split_right ha hb⟩

/-- A side of eleven bytes may be much deeper than one of twelve. A comparison that is one byte short
of the greatest word exists at any depth. -/
theorem split_keeps_order_and_grows_deep :
    split ⟨11, 9⟩ ⟨20, 3⟩ ≤ split ⟨12, 0⟩ ⟨20, 3⟩ ∧
      (8 + (4294967286 : UInt32).toNat + (0 : UInt32).toNat ≤ 4294967294 ∧
        split ⟨4294967286, 4294967295⟩ ⟨0, 0⟩ ≠ infinite ∧
          (⟨4294967286, 4294967295⟩ : Cost) < split ⟨4294967286, 4294967295⟩ ⟨0, 0⟩) := by
  obtain ⟨keeps, grows⟩ := split_keeps_order_and_grows
  obtain ⟨finite, -, left, -⟩ :=
    grows ⟨4294967286, 4294967295⟩ ⟨0, 0⟩ (by decide) (by decide) (by decide)
  exact ⟨keeps ⟨11, 9⟩ ⟨12, 0⟩ ⟨20, 3⟩ ⟨20, 3⟩ (by decide) (by decide) (.inr (.inr (by decide))),
    by decide, finite, left⟩

end Cost

end RangeLookup
