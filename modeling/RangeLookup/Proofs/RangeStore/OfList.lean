import RangeLookup.Proofs.RangeStore.Get

/-!
# Stores built from lists

A push has a result exactly when there is a store that holds the longer sequence, and that store is
the result (`push_eq_ok_iff`); so a list is built exactly into the store that holds it
(`ofList_eq_ok_iff`), and a canonical list always is. The ranges of a part of a store are canonical,
and the store built from them has them at indices that start from zero (`get_of_slice`).
-/

namespace RangeLookup

namespace RangeStore

variable {s t u : RangeStore} {ranges : List Interval} {r : Interval} {i j a b : Nat}

theorem push_eq_ok_iff : s.push r = .ok t ↔ t.toList = s.toList ++ [r] := by
  constructor
  · exact toList_push
  · intro h
    have accepted : s.refusal? r = none := refusal?_eq_none_iff.2 (h ▸ t.toList_canonical)
    cases hp : s.push r with
    | error e =>
      rw [push_eq_error_iff, accepted] at hp
      cases hp
    | ok u => rw [ext ((toList_push hp).trans h.symm)]

theorem foldlM_push_eq_ok_iff :
    ranges.foldlM push u = .ok s ↔ s.toList = u.toList ++ ranges := by
  induction ranges generalizing u with
  | nil =>
    rw [List.foldlM_nil, List.append_nil]
    constructor
    · intro h
      cases h
      rfl
    · intro h
      rw [ext h]
      rfl
  | cons r rest ih =>
    rw [List.foldlM_cons]
    cases hp : u.push r with
    | error e =>
      constructor
      · intro h
        cases h
      · intro h
        -- the front of a canonical list is canonical, so the push would have a result
        have whole := s.toList_canonical
        rw [h, List.append_cons] at whole
        have pushed : u.push r = .ok ⟨(u.toList ++ [r]).toArray, whole.of_append_left⟩ :=
          push_eq_ok_iff.2 rfl
        cases hp.symm.trans pushed
    | ok v =>
      show rest.foldlM push v = .ok s ↔ _
      rw [ih, toList_push hp, List.append_assoc, List.singleton_append]

/-- A list is built into the store that holds it, if there is one. -/
theorem ofList_eq_ok_iff : ofList ranges = .ok s ↔ s.toList = ranges := by
  rw [ofList, foldlM_push_eq_ok_iff, toList_empty, List.nil_append]

theorem exists_ofList (h : Canonical ranges) : ∃ s, ofList ranges = .ok s :=
  ⟨⟨ranges.toArray, h⟩, ofList_eq_ok_iff.2 rfl⟩

section Slice

theorem canonical_slice (s : RangeStore) (i j : Nat) : Canonical (s.slice i j) := by
  apply s.toList_canonical.sublist
  rw [slice, Array.toList_extract, List.extract_eq_take_drop]
  exact (List.take_sublist _ _).trans (List.drop_sublist _ _)

theorem size_of_slice (h : u.toList = s.slice i j) (hj : j < s.size) : u.size = j + 1 - i := by
  rw [size_eq, h, length_slice hj]

/-- The ranges of a part by their indices within it. -/
theorem get_of_slice (h : u.toList = s.slice i j) (hj : j < s.size) (ha : a + i ≤ j) :
    u.get a = s.get (a + i) := by
  have inside : a < u.toList.length := by
    rw [← size_eq, size_of_slice h hj]
    omega
  rw [slice_eq_map_get hj] at h
  rw [get_eq_getElem inside]
  simp only [h, List.getElem_map, List.getElem_range', Nat.one_mul, Nat.add_comm i]

theorem slice_of_slice (h : u.toList = s.slice i j) (hj : j < s.size) (hb : b + i ≤ j) :
    u.slice a b = s.slice (a + i) (b + i) := by
  have size := size_of_slice h hj
  have moved : List.range' (a + i) (b + i + 1 - (a + i)) =
      (List.range' a (b + 1 - a)).map (i + ·) := by
    rw [List.map_add_range', Nat.add_comm i a]
    congr 1
    omega
  rw [slice_eq_map_get (by omega), slice_eq_map_get (by omega), moved, List.map_map]
  apply List.map_congr_left
  intro k hk
  rw [List.mem_range'_1] at hk
  rw [Function.comp_apply, Nat.add_comm i k]
  exact get_of_slice h hj (by omega)

end Slice

end RangeStore

end RangeLookup
