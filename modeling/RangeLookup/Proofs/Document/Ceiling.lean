import RangeLookup.Proofs.Document.Denotation

/-!
# The same document under another ceiling

The ceiling decides only whether there are too many ranges: a document that is read under one
ceiling gives the same ranges under every ceiling that they stay below, and `capacityExceeded` under
every other one (`read_of_read_eq_ok`).

Steps under two ceilings go hand in hand as long as the complete ranges are within both. Complete
ranges never become fewer (`Intake.size_le_add`), so once they pass the second ceiling they stay past
it, and it does not matter that the second run stops there.
-/

namespace RangeLookup.Document

/-- A result with as many ranges, unless these are more than the ceiling allows. -/
def within {α : Type} (ceiling size : Nat) (a : α) : Except Error α :=
  if size ≤ ceiling then .ok a else .error (.capacityExceeded ceiling)

namespace Intake

variable {ceiling other line : Nat} {i j : Intake} {s t : RangeStore} {r : Interval}

theorem size_le_add (h : i.add ceiling line r = .ok j) : i.closed.size ≤ j.closed.size := by
  rcases add_cases h with ⟨-, rfl⟩ | ⟨p, -, -, -, rfl⟩ | ⟨p, closed, -, -, -, stored, rfl⟩
  · exact Nat.le_refl _
  · exact Nat.le_refl _
  · have size := RangeStore.size_push (store_eq_ok_iff.1 stored).2
    show i.closed.size ≤ closed.size
    omega

theorem store_of_store_eq_ok (h : store ceiling s r = .ok t) :
    store other s r = within other t.size t := by
  obtain ⟨-, pushed⟩ := store_eq_ok_iff.1 h
  rw [store, within, RangeStore.size_push pushed, pushed]
  by_cases full : other ≤ s.size
  · rw [if_pos full, if_neg (by omega)]
  · rw [if_neg full, if_pos (by omega)]
    rfl

theorem add_of_add_eq_ok (h : i.add ceiling line r = .ok j) (hs : i.closed.size ≤ other) :
    i.add other line r = within other j.closed.size j := by
  rcases add_cases h with ⟨pending, rfl⟩ | ⟨p, pending, sorted, touching, rfl⟩ |
    ⟨p, closed, pending, sorted, gap, stored, rfl⟩
  · simp only [add, pending, within, if_pos hs]
  · simp only [add, pending, UInt32.not_lt.2 sorted, touching, within, if_pos hs, if_true, if_false]
  · simp only [add, pending, UInt32.not_lt.2 sorted, Nat.not_le.2 gap, store_of_store_eq_ok stored,
      within, if_false]
    split <;> rfl

theorem finish_of_finish_eq_ok (h : i.finish ceiling = .ok s) (hs : i.closed.size ≤ other) :
    i.finish other = within other s.size s := by
  rcases finish_cases h with ⟨pending, rfl⟩ | ⟨p, pending, stored⟩
  · simp only [finish, pending, within, if_pos hs]
  · simp only [finish, pending]
    exact store_of_store_eq_ok stored

theorem size_le_finish (h : i.finish ceiling = .ok s) : i.closed.size ≤ s.size := by
  rcases finish_cases h with ⟨-, rfl⟩ | ⟨p, -, stored⟩
  · exact Nat.le_refl _
  · have size := RangeStore.size_push (store_eq_ok_iff.1 stored).2
    omega

end Intake

section Lines

variable {ceiling other number : Nat} {all : List Bytes} {i j : Intake}

theorem size_le_readLines (h : readLines ceiling number all i = .ok j) :
    i.closed.size ≤ j.closed.size := by
  induction all generalizing number i with
  | nil =>
    cases h
    exact Nat.le_refl _
  | cons line rest ih =>
    obtain ⟨r, k, -, hadd, hrest⟩ := readLines_cons_eq_ok_iff.1 h
    exact Nat.le_trans (Intake.size_le_add hadd) (ih hrest)

theorem readLines_of_readLines_eq_ok (h : readLines ceiling number all i = .ok j)
    (hs : i.closed.size ≤ other) :
    readLines other number all i = within other j.closed.size j := by
  induction all generalizing number i with
  | nil =>
    cases h
    rw [readLines, within, if_pos hs]
  | cons line rest ih =>
    obtain ⟨r, k, hline, hadd, hrest⟩ := readLines_cons_eq_ok_iff.1 h
    have step := Intake.add_of_add_eq_ok hadd hs
    by_cases room : k.closed.size ≤ other
    · rw [within, if_pos room] at step
      rw [readLines, hline]
      simp only [bind, Except.bind, step]
      exact ih hrest room
    · -- this line is the one that passes the ceiling, and the rest only adds to it
      have more := size_le_readLines hrest
      rw [within, if_neg room] at step
      rw [readLines, hline, within, if_neg (by omega)]
      simp only [bind, Except.bind, step]

end Lines

/-- Under another ceiling a document that is read gives the same ranges, or has too many. -/
theorem read_of_read_eq_ok {document : Bytes} {ceiling : Nat} {s : RangeStore}
    (h : read document ceiling = .ok s) (other : Nat) :
    read document other = within other s.size s := by
  obtain ⟨i, hlines, hfinish⟩ := read_eq_ok_iff.1 h
  have run := readLines_of_readLines_eq_ok hlines (Nat.zero_le other)
  rw [read, run]
  by_cases room : i.closed.size ≤ other
  · rw [within, if_pos room]
    exact Intake.finish_of_finish_eq_ok hfinish room
  · have more := Intake.size_le_finish hfinish
    rw [within, if_neg room, within, if_neg (by omega)]
    rfl

/-- A ceiling cuts a document off, and does nothing else to it: one that is read gives the same ranges
under every ceiling that has room for them, and is refused under every other one for having too
many. -/
theorem read_under_ceiling {document : Bytes} {ceiling : Nat} {s : RangeStore}
    (h : read document ceiling = .ok s) :
    (∀ other, s.size ≤ other → read document other = .ok s) ∧
      ∀ other, other < s.size → read document other = .error (.capacityExceeded other) := by
  constructor
  · intro other room
    rw [read_of_read_eq_ok h, within, if_pos room]
  · intro other few
    rw [read_of_read_eq_ok h, within, if_neg (Nat.not_le.2 few)]

theorem read_under_ceiling_overlapping :
    read overlapping 2 = .ok overlappingRanges ∧ read overlapping 7 = .ok overlappingRanges ∧
      read overlapping 1 = .error (.capacityExceeded 1) ∧
      read overlapping 0 = .error (.capacityExceeded 0) := by
  obtain ⟨roomy, tight⟩ := read_under_ceiling read_overlapping
  exact ⟨read_overlapping, roomy 7 (by decide), tight 1 (by decide), tight 0 (by decide)⟩

end RangeLookup.Document
