import Mathlib
import RangeLookup.FlatTable
import RangeLookup.Proofs.RangeStore.Get

/-!
# Flat tables and their entries

A table costs less than infinity exactly when it exists, and it exists exactly when every entry fits
the format (`feasible_iff_fits`): the offsets grow along the table, so the last one decides for all.
-/

namespace RangeLookup

/-- A field that holds a value holds every lesser one. -/
theorem Width.holds_of_le {w : Width} {u v : UInt32} (h : w.holds v = true) (hle : u ≤ v) :
    w.holds u = true := by
  rw [holds_iff] at h ⊢
  rw [UInt32.le_iff_toNat_le] at hle
  omega

namespace FlatTable

variable {s : RangeStore} {t : FlatTable}

theorem cost_ne_infinite_iff : t.cost s ≠ Cost.infinite ↔ t.feasible s = true := by
  rw [cost]
  split
  · next h => simp [h, Cost.infinite]
  · next h => simp [h]

theorem mem_entries_iff (hl : t.last < s.size) {e : Entry} :
    e ∈ t.entries s ↔
      ∃ k, t.first ≤ k ∧ k ≤ t.last ∧ ⟨(s.get k).low - t.base s, (s.get k).span⟩ = e := by
  rw [entries, List.mem_map]
  constructor
  · rintro ⟨r, hr, he⟩
    obtain ⟨k, hf, hk, rfl⟩ := (RangeStore.mem_slice_iff hl).1 hr
    exact ⟨k, hf, hk, he⟩
  · rintro ⟨k, hf, hk, he⟩
    exact ⟨s.get k, (RangeStore.mem_slice_iff hl).2 ⟨k, hf, hk, rfl⟩, he⟩

theorem length_entries (hle : t.first ≤ t.last) (hl : t.last < s.size) :
    (t.entries s).length = t.count := by
  rw [entries, List.length_map, RangeStore.length_slice hl, count]
  omega

/-- Offsets within a part of a run are no greater than the offset of the last range of the run. -/
theorem offset_le {first i j last : Nat} (hf : first ≤ i) (hij : i ≤ j) (hl : j ≤ last)
    (hs : last < s.size) :
    (s.get j).low - (s.get i).low ≤ (s.get last).low - (s.get first).low := by
  have start := RangeStore.low_mono (s := s) hf (by omega)
  have inside := RangeStore.low_mono (s := s) hij (by omega)
  have stop := RangeStore.low_mono hl hs
  have whole := UInt32.le_trans start (UInt32.le_trans inside stop)
  rw [UInt32.le_iff_toNat_le, UInt32.toNat_sub_of_le _ _ inside, UInt32.toNat_sub_of_le _ _ whole]
  rw [UInt32.le_iff_toNat_le] at start inside stop
  omega

/-- A table exists exactly when each of its entries fits the format. -/
theorem feasible_iff_fits (hle : t.first ≤ t.last) (hl : t.last < s.size) :
    t.feasible s = true ↔ ∀ e ∈ t.entries s, e.Fits t.format := by
  rw [feasible, Bool.and_eq_true, List.all_eq_true]
  constructor
  · rintro ⟨offset, spans⟩ e he
    obtain ⟨k, hf, hk, rfl⟩ := (mem_entries_iff hl).1 he
    refine ⟨Width.holds_of_le offset (offset_le (Nat.le_refl _) hf hk hl), spans _ ?_⟩
    exact (RangeStore.mem_slice_iff hl).2 ⟨k, hf, hk, rfl⟩
  · intro fits
    have each : ∀ k, t.first ≤ k → k ≤ t.last →
        Entry.Fits ⟨(s.get k).low - t.base s, (s.get k).span⟩ t.format := fun k hf hk =>
      fits _ ((mem_entries_iff hl).2 ⟨k, hf, hk, rfl⟩)
    refine ⟨(each t.last hle (Nat.le_refl _)).1, fun r hr => ?_⟩
    obtain ⟨k, hf, hk, rfl⟩ := (RangeStore.mem_slice_iff hl).1 hr
    exact (each k hf hk).2

end FlatTable

end RangeLookup
