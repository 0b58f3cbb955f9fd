/-!
# Inclusive ranges

Ranges of 32-bit values, both bounds included. `Before` leaves at least one value free between two
ranges, so that ranges in this order neither overlap nor touch; `Canonical` is that order for a
whole list. `canonical_concat_iff` reduces it to the last range and the one after it.
-/

namespace RangeLookup

/-- The values from `low` to `high`. -/
structure Interval where
  low : UInt32
  high : UInt32
  deriving DecidableEq, Repr, Inhabited

namespace Interval

/-- How far the last value lies above the first. -/
def span (r : Interval) : UInt32 := r.high - r.low

/-- The value lies in the range. -/
def Contains (r : Interval) (v : UInt32) : Prop := r.low ≤ v ∧ v ≤ r.high

instance (r : Interval) (v : UInt32) : Decidable (r.Contains v) :=
  inferInstanceAs (Decidable (_ ∧ _))

/-- At least one value lies between the two ranges. -/
def Before (a b : Interval) : Prop := a.high.toNat + 2 ≤ b.low.toNat

instance (a b : Interval) : Decidable (a.Before b) := inferInstanceAs (Decidable (_ ≤ _))

theorem toNat_span {r : Interval} (h : r.low ≤ r.high) :
    r.span.toNat = r.high.toNat - r.low.toNat := UInt32.toNat_sub_of_le _ _ h

theorem Before.trans {a b c : Interval} (hb : b.low ≤ b.high) (h₁ : a.Before b) (h₂ : b.Before c) :
    a.Before c := by
  rw [UInt32.le_iff_toNat_le] at hb
  unfold Before at *
  omega

end Interval

/-- No range is upside down, and each lies before all that follow it. -/
structure Canonical (ranges : List Interval) : Prop where
  ordered : ∀ r ∈ ranges, r.low ≤ r.high
  apart : ranges.Pairwise Interval.Before

namespace Canonical

theorem nil : Canonical [] := ⟨nofun, .nil⟩

instance (ranges : List Interval) : Decidable (Canonical ranges) :=
  decidable_of_iff ((∀ r ∈ ranges, r.low ≤ r.high) ∧ ranges.Pairwise Interval.Before)
    ⟨fun h => ⟨h.1, h.2⟩, fun h => ⟨h.ordered, h.apart⟩⟩

theorem of_append_left {front back : List Interval} (h : Canonical (front ++ back)) :
    Canonical front :=
  ⟨fun r hr => h.ordered r (List.mem_append_left _ hr), (List.pairwise_append.1 h.apart).1⟩

theorem sublist {some all : List Interval} (h : Canonical all) (hs : some.Sublist all) :
    Canonical some :=
  ⟨fun r hr => h.ordered r (hs.subset hr), h.apart.sublist hs⟩

end Canonical

/-- One more range keeps a list canonical when it is upright and lies before no end of the list. -/
theorem canonical_concat_iff {ranges : List Interval} {r : Interval} :
    Canonical (ranges ++ [r]) ↔
      Canonical ranges ∧ r.low ≤ r.high ∧ ∀ prev ∈ ranges.getLast?, prev.Before r := by
  constructor
  · intro h
    refine ⟨h.of_append_left, h.ordered r (by simp), fun prev hp => ?_⟩
    exact (List.pairwise_append.1 h.apart).2.2 prev (List.mem_of_getLast? hp) r (by simp)
  · rintro ⟨h, hr, hb⟩
    refine ⟨?_, List.pairwise_append.2 ⟨h.apart, List.pairwise_singleton _ _, ?_⟩⟩
    · intro q hq
      rcases List.mem_append.1 hq with hq | hq
      · exact h.ordered q hq
      · rw [List.mem_singleton.1 hq]; exact hr
    · intro q hq s hs
      rw [List.mem_singleton.1 hs]
      rcases List.eq_nil_or_concat ranges with rfl | ⟨front, last, rfl⟩
      · cases hq
      · rw [List.concat_eq_append] at *
        have hl : last.Before r := hb last (by simp)
        rcases List.mem_append.1 hq with hq | hq
        · exact ((List.pairwise_append.1 h.apart).2.2 q hq last (by simp)).trans
            (h.ordered last (by simp)) hl
        · rw [List.mem_singleton.1 hq]; exact hl

end RangeLookup
