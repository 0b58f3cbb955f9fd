import RangeLookup.RangeStore

/-!
# The ranges of a store by index

Each range of a store is upright, and each lies before all with a greater index (`get_before`), so
an index is as good as a bound: a value of the range at `k` lies below the start of every later
range and above the end of every earlier one. Since a free value follows each range, a store holds
half as many ranges as there are words, and no more (`size_le`). A slice is the ranges of its
indices (`slice_eq_map_get`).
-/

namespace RangeLookup

namespace RangeStore

variable {s : RangeStore} {i j : Nat} {v : UInt32}

theorem get_eq_getElem (h : i < s.toList.length) : s.get i = s.toList[i] := by
  have hi : i < s.intervals.size := h
  simp [get, toList, Array.getD, hi]

theorem get_mem (h : i < s.size) : s.get i ∈ s.toList := by
  rw [size_eq] at h
  rw [get_eq_getElem h]
  exact List.getElem_mem h

theorem low_le_high (h : i < s.size) : (s.get i).low ≤ (s.get i).high :=
  s.toList_canonical.ordered _ (get_mem h)

theorem get_before (hij : i < j) (hj : j < s.size) : (s.get i).Before (s.get j) := by
  rw [size_eq] at hj
  rw [get_eq_getElem (by omega), get_eq_getElem hj]
  exact List.pairwise_iff_getElem.1 s.toList_canonical.apart i j (by omega) hj hij

/-- A value of a range lies below the start of every later range. -/
theorem lt_low_of_contains (hij : i < j) (hj : j < s.size) (hv : (s.get i).Contains v) :
    v < (s.get j).low := by
  have apart := get_before hij hj
  have high := UInt32.le_iff_toNat_le.1 hv.2
  unfold Interval.Before at apart
  rw [UInt32.lt_iff_toNat_lt]
  omega

/-- A value of a range is no less than the start of that range and of every earlier one. -/
theorem low_le_of_contains (hij : i ≤ j) (hj : j < s.size) (hv : (s.get j).Contains v) :
    (s.get i).low ≤ v := by
  rcases Nat.lt_or_eq_of_le hij with hlt | rfl
  · have upright := low_le_high (s := s) (i := i) (by omega)
    have apart := get_before hlt hj
    have low := UInt32.le_iff_toNat_le.1 hv.1
    unfold Interval.Before at apart
    rw [UInt32.le_iff_toNat_le] at upright ⊢
    omega
  · exact hv.1

/-- A range and a free value lie before each range for every index below its own. -/
theorem two_mul_le_low (h : i < s.size) : 2 * i ≤ (s.get i).low.toNat := by
  induction i with
  | zero => exact Nat.zero_le _
  | succ i ih =>
    have before := ih (by omega)
    have upright := UInt32.le_iff_toNat_le.1 (low_le_high (s := s) (i := i) (by omega))
    have apart := get_before (Nat.lt_add_one i) h
    unfold Interval.Before at apart
    omega

theorem size_le (s : RangeStore) : s.size ≤ 2147483648 := by
  apply Nat.le_of_not_lt
  intro more
  have low := two_mul_le_low (s := s) (i := 2147483648) (by omega)
  have word := (s.get 2147483648).low.toNat_lt
  omega

theorem low_mono (hij : i ≤ j) (hj : j < s.size) : (s.get i).low ≤ (s.get j).low :=
  low_le_of_contains hij hj ⟨UInt32.le_refl _, low_le_high hj⟩

section Slice

variable {first last k : Nat} {r : Interval}

theorem slice_eq_map_get (h : last < s.size) :
    s.slice first last = (List.range' first (last + 1 - first)).map s.get := by
  rw [size_eq] at h
  have slice : s.slice first last = (s.toList.drop first).take (last + 1 - first) := by
    rw [RangeStore.slice, Array.toList_extract, List.extract_eq_take_drop]
    rfl
  rw [slice]
  apply List.ext_getElem
  · rw [List.length_take, List.length_drop, List.length_map, List.length_range']
    omega
  · intro k hk _
    rw [List.length_take, List.length_drop] at hk
    rw [List.getElem_take, List.getElem_drop, List.getElem_map, List.getElem_range', Nat.one_mul,
      get_eq_getElem (by omega)]

theorem mem_slice_iff (h : last < s.size) :
    r ∈ s.slice first last ↔ ∃ k, first ≤ k ∧ k ≤ last ∧ s.get k = r := by
  rw [slice_eq_map_get h, List.mem_map]
  constructor
  · rintro ⟨k, hk, he⟩
    rw [List.mem_range'_1] at hk
    exact ⟨k, hk.1, by omega, he⟩
  · rintro ⟨k, hf, hl, he⟩
    exact ⟨k, List.mem_range'_1.2 ⟨hf, by omega⟩, he⟩

theorem length_slice (h : last < s.size) : (s.slice first last).length = last + 1 - first := by
  rw [slice_eq_map_get h, List.length_map, List.length_range']

theorem toList_eq_map_get (s : RangeStore) : s.toList = (List.range s.size).map s.get := by
  apply List.ext_getElem
  · rw [List.length_map, List.length_range, size_eq]
  · intro k hk _
    rw [List.getElem_map, List.getElem_range, get_eq_getElem hk]

end Slice

end RangeStore

end RangeLookup
