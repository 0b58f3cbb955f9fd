import RangeLookup.Proofs.Document.Rejection

/-!
# Documents of canonical ranges

Documents whose lines stand for canonical ranges are read as these ranges (`read_of_standsFor`),
whatever else is on the lines. Nothing is merged on the way: a free value lies between one range and
the next, so that each is complete as soon as the next one comes (`Intake.exists_add_of_canonical`).
That value is looked for among the integers, hence a range that ends with the greatest word does no
harm.
-/

namespace RangeLookup.Document

namespace Intake

variable {ceiling : Nat} {i : Intake} {s : RangeStore} {p r : Interval}

theorem ranges_of_pending (pending : i.pending = some p) : i.ranges = i.closed.toList ++ [p] := by
  rw [ranges, pending, Option.toList_some]

/-- A range that keeps the ranges canonical is stored while the ceiling has room for it. -/
theorem exists_store_of_canonical (h : Canonical (s.toList ++ [p]))
    (room : (s.toList ++ [p]).length ≤ ceiling) :
    ∃ t, store ceiling s p = .ok t ∧ t.toList = s.toList ++ [p] := by
  obtain ⟨t, holds, stores⟩ := exists_store h
  have size : t.size ≤ ceiling := by rw [RangeStore.size_eq, holds]; exact room
  refine ⟨t, ?_, holds⟩
  rw [stores, within, if_pos size]

/-- A range that keeps the ranges canonical is not merged: the pending range is complete, and the new
one takes its place. -/
theorem exists_add_of_canonical (number : Nat) (h : Canonical (i.ranges ++ [r]))
    (room : i.ranges.length ≤ ceiling) :
    ∃ j, i.add ceiling number r = .ok j ∧ j.ranges = i.ranges ++ [r] := by
  cases pending : i.pending with
  | none =>
    refine ⟨⟨i.closed, some r⟩, by rw [add, pending], ?_⟩
    simp [ranges, pending]
  | some p =>
    rw [ranges_of_pending pending] at h room ⊢
    obtain ⟨complete, -, before⟩ := canonical_concat_iff.1 h
    have gap : p.high.toNat + 2 ≤ r.low.toNat := before p (by simp)
    have ordered := UInt32.le_iff_toNat_le.1 (complete.ordered p (by simp))
    have sorted : ¬ r.low < p.low := by
      rw [UInt32.not_lt, UInt32.le_iff_toNat_le]
      omega
    have apart : ¬ r.low.toNat ≤ p.high.toNat + 1 := by omega
    obtain ⟨t, stored, holds⟩ := exists_store_of_canonical complete room
    refine ⟨⟨t, some r⟩, ?_, ?_⟩
    · simp only [add, pending, sorted, apart, if_false, stored]
      rfl
    · rw [ranges_of_pending rfl, holds]

theorem exists_finish_of_canonical (h : Canonical i.ranges) (room : i.ranges.length ≤ ceiling) :
    ∃ s, i.finish ceiling = .ok s ∧ s.toList = i.ranges := by
  cases pending : i.pending with
  | none =>
    refine ⟨i.closed, by rw [finish, pending], ?_⟩
    rw [ranges, pending, Option.toList_none, List.append_nil]
  | some p =>
    rw [ranges_of_pending pending] at h room ⊢
    obtain ⟨t, stored, holds⟩ := exists_store_of_canonical h room
    refine ⟨t, ?_, holds⟩
    rw [finish, pending]
    exact stored

end Intake

variable {ceiling : Nat} {all : List Bytes} {ranges : List Interval} {i : Intake}
  {document : Bytes} {s : RangeStore}

/-- Lines that stand for ranges in canonical order add these ranges one by one. -/
theorem exists_readLines_of_canonical (number : Nat) (h : List.Forall₂ StandsFor all ranges)
    (canonical : Canonical (i.ranges ++ ranges)) (room : (i.ranges ++ ranges).length ≤ ceiling) :
    ∃ j, readLines ceiling number all i = .ok j ∧ j.ranges = i.ranges ++ ranges := by
  induction h generalizing number i with
  | nil => exact ⟨i, rfl, (List.append_nil _).symm⟩
  | @cons line r rest others stands _ ih =>
    rw [List.append_cons] at canonical room
    have upright : r.low ≤ r.high := canonical.ordered r (by simp)
    have fits : i.ranges.length ≤ ceiling := by
      simp only [List.length_append] at room
      omega
    obtain ⟨k, added, holds⟩ :=
      Intake.exists_add_of_canonical number canonical.of_append_left fits
    rw [← holds] at canonical room
    obtain ⟨j, read, total⟩ := ih (number + 1) canonical room
    refine ⟨j, ?_, ?_⟩
    · exact readLines_cons_eq_ok_iff.2 ⟨r, k, readLine_eq_ok_iff.2 ⟨stands, upright⟩, added, read⟩
    · rw [total, holds, List.append_assoc, List.singleton_append]

/-- A document whose lines stand for the ranges of a store is read as that store. -/
theorem read_of_standsFor (h : List.Forall₂ StandsFor (lines document) s.toList)
    (room : s.size ≤ ceiling) : read document ceiling = .ok s := by
  rw [RangeStore.size_eq] at room
  obtain ⟨j, taken, whole⟩ :=
    exists_readLines_of_canonical (i := .empty) 1 h s.toList_canonical room
  have holds : j.ranges = s.toList := whole
  have canonical : Canonical j.ranges := holds ▸ s.toList_canonical
  rw [← holds] at room
  obtain ⟨t, finished, same⟩ := Intake.exists_finish_of_canonical canonical room
  have built : t = s := RangeStore.ext (same.trans holds)
  exact read_eq_ok_iff.2 ⟨j, taken, built ▸ finished⟩

end RangeLookup.Document
