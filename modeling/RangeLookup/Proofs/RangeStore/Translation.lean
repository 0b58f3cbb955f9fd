import RangeLookup.Proofs.RangeStore.OfList

/-!
# Ranges moved along the number line

The same integer is added to every bound, up or down, and as long as every bound stays a word the
ranges keep their spans, their distances and their order (`span_translate`, `low_sub_low_translate`,
`Canonical.translate`). The store of the moved ranges has each of them at the index where it was
before (`Translation.get`).
-/

namespace RangeLookup

/-- The word by `c` above another one, as long as that is a word. -/
def moveWord (c : Int) (v : UInt32) : UInt32 := UInt32.ofNat (v.toNat + c).toNat

/-- What results when `c` is added to a word is still a word. -/
def StaysWord (c : Int) (v : UInt32) : Prop := 0 ≤ v.toNat + c ∧ v.toNat + c < 4294967296

instance (c : Int) (v : UInt32) : Decidable (StaysWord c v) := inferInstanceAs (Decidable (_ ∧ _))

theorem toNat_moveWord {c : Int} {v : UInt32} (h : StaysWord c v) :
    ((moveWord c v).toNat : Int) = v.toNat + c := by
  obtain ⟨low, high⟩ := h
  rw [moveWord, UInt32.toNat_ofNat_of_lt' (by show _ < 4294967296; omega), Int.toNat_of_nonneg low]

namespace Interval

variable {c : Int} {q r : Interval}

/-- The range with `c` added to both bounds. -/
def translate (c : Int) (r : Interval) : Interval := ⟨moveWord c r.low, moveWord c r.high⟩

/-- Both bounds stay words when `c` is added to them. -/
def Movable (c : Int) (r : Interval) : Prop := StaysWord c r.low ∧ StaysWord c r.high

instance (c : Int) (r : Interval) : Decidable (r.Movable c) := inferInstanceAs (Decidable (_ ∧ _))

theorem toNat_low_translate (h : r.Movable c) : ((r.translate c).low.toNat : Int) = r.low.toNat + c :=
  toNat_moveWord h.1

theorem toNat_high_translate (h : r.Movable c) :
    ((r.translate c).high.toNat : Int) = r.high.toNat + c := toNat_moveWord h.2

theorem translate_upright_iff (h : r.Movable c) :
    (r.translate c).low ≤ (r.translate c).high ↔ r.low ≤ r.high := by
  have low := toNat_low_translate h
  have high := toNat_high_translate h
  rw [UInt32.le_iff_toNat_le, UInt32.le_iff_toNat_le]
  omega

theorem before_translate_iff (hq : q.Movable c) (hr : r.Movable c) :
    (q.translate c).Before (r.translate c) ↔ q.Before r := by
  have high := toNat_high_translate hq
  have low := toNat_low_translate hr
  unfold Before
  omega

theorem span_translate (h : r.Movable c) (upright : r.low ≤ r.high) :
    (r.translate c).span = r.span := by
  have low := toNat_low_translate h
  have high := toNat_high_translate h
  rw [← UInt32.toNat_inj, toNat_span upright, toNat_span ((translate_upright_iff h).2 upright)]
  omega

/-- The distance between the starts of two ranges stays as it is. -/
theorem low_sub_low_translate (hq : q.Movable c) (hr : r.Movable c) (le : q.low ≤ r.low) :
    (r.translate c).low - (q.translate c).low = r.low - q.low := by
  have first := toNat_low_translate hq
  have second := toNat_low_translate hr
  have le' : (q.translate c).low ≤ (r.translate c).low := by
    rw [UInt32.le_iff_toNat_le] at le ⊢
    omega
  rw [← UInt32.toNat_inj, UInt32.toNat_sub_of_le _ _ le, UInt32.toNat_sub_of_le _ _ le']
  omega

end Interval

theorem Canonical.translate {c : Int} {ranges : List Interval} (h : Canonical ranges)
    (hm : ∀ r ∈ ranges, r.Movable c) : Canonical (ranges.map (Interval.translate c)) where
  ordered := by
    intro moved listed
    obtain ⟨r, hr, rfl⟩ := List.mem_map.1 listed
    exact (Interval.translate_upright_iff (hm r hr)).2 (h.ordered r hr)
  apart := by
    rw [List.pairwise_map]
    apply h.apart.imp_of_mem
    intro q r hq hr before
    exact (Interval.before_translate_iff (hm q hq) (hm r hr)).2 before

namespace RangeStore

/-- The second store holds the ranges of the first with `c` added to their bounds, all of which stay
words. -/
structure Translation (c : Int) (s u : RangeStore) : Prop where
  movable : ∀ r ∈ s.toList, r.Movable c
  toList : u.toList = s.toList.map (Interval.translate c)

namespace Translation

variable {c : Int} {s u : RangeStore} {i j : Nat}

theorem size (h : Translation c s u) : u.size = s.size := by
  rw [size_eq, size_eq, h.toList, List.length_map]

theorem movable_get (h : Translation c s u) (hi : i < s.size) : (s.get i).Movable c :=
  h.movable _ (get_mem hi)

/-- Moved ranges keep their indices. -/
theorem get (h : Translation c s u) (hi : i < s.size) : u.get i = (s.get i).translate c := by
  have inside : i < u.toList.length := by
    rw [← size_eq, h.size]
    exact hi
  rw [size_eq] at hi
  rw [get_eq_getElem inside, get_eq_getElem hi]
  simp only [h.toList, List.getElem_map]

theorem span (h : Translation c s u) (hi : i < s.size) : (u.get i).span = (s.get i).span := by
  rw [h.get hi]
  exact Interval.span_translate (h.movable_get hi) (low_le_high hi)

theorem low_sub_low (h : Translation c s u) (hij : i ≤ j) (hj : j < s.size) :
    (u.get j).low - (u.get i).low = (s.get j).low - (s.get i).low := by
  have hi : i < s.size := Nat.lt_of_le_of_lt hij hj
  rw [h.get hi, h.get hj]
  exact Interval.low_sub_low_translate (h.movable_get hi) (h.movable_get hj) (low_mono hij hj)

end Translation

/-- Ranges whose bounds stay words can be moved. -/
theorem exists_translation {c : Int} {s : RangeStore} (hm : ∀ r ∈ s.toList, r.Movable c) :
    ∃ u, ofList (s.toList.map (Interval.translate c)) = .ok u ∧ Translation c s u := by
  obtain ⟨u, built⟩ := exists_ofList (s.toList_canonical.translate hm)
  exact ⟨u, built, hm, ofList_eq_ok_iff.1 built⟩

end RangeStore

end RangeLookup
