import Mathlib
import RangeLookup.Document
import RangeLookup.Proofs.Interval.Union

/-!
# What a document denotes

A document denotes the values of the ranges that its lines stand for. Reading keeps them all and
adds none (`covered_read`), whatever overlaps, nests, repeats or touches on the way.

The invariant is about the ranges of an intake, complete and pending ones together. A line adds its
own values to theirs (`Intake.covered_add`), by induction so do all lines (`covered_readLines`), and
finishing moves the pending range to the others (`Intake.toList_finish`). What a step
can do is said once, in `Intake.add_cases`, `Intake.finish_cases` and `Intake.store_eq_ok_iff`.
-/

namespace RangeLookup

theorem RangeStore.size_push {s t : RangeStore} {r : Interval} (h : s.push r = .ok t) :
    t.size = s.size + 1 := by
  rw [size_eq, toList_push h, List.length_append, ← size_eq, List.length_singleton]

namespace Document

/-- The line gives the range. -/
def StandsFor (line : Bytes) (r : Interval) : Prop :=
  ∃ text, decode? line = some text ∧ range? text.toList = some r

/-- Some line of the document gives a range with the value. -/
def Denotes (document : Bytes) (v : UInt32) : Prop :=
  ∃ line ∈ lines document, ∃ r, StandsFor line r ∧ r.Contains v

section Line

variable {line : Bytes} {number : Nat} {r q : Interval}

theorem StandsFor.unique (h : StandsFor line r) (h' : StandsFor line q) : r = q := by
  obtain ⟨text, ht, hr⟩ := h
  obtain ⟨text', ht', hq⟩ := h'
  cases ht.symm.trans ht'
  exact Option.some.inj (hr.symm.trans hq)

/-- A line is read when it gives a range that is not upside down. -/
theorem readLine_eq_ok_iff : readLine number line = .ok r ↔ StandsFor line r ∧ r.low ≤ r.high := by
  unfold readLine StandsFor
  cases decode? line with
  | none => simp
  | some text =>
    simp only [Option.some.injEq, exists_eq_left']
    cases range? text.toList with
    | none => simp
    | some q =>
      simp only [Option.some.injEq]
      split
      · next inverted =>
        constructor
        · nofun
        · rintro ⟨rfl, upright⟩
          exact absurd inverted (UInt32.not_lt.2 upright)
      · next upright =>
        rw [UInt32.not_lt] at upright
        constructor
        · intro h
          cases h
          exact ⟨rfl, upright⟩
        · rintro ⟨rfl, -⟩
          rfl

end Line

namespace Intake

variable {ceiling line : Nat} {i j : Intake} {s t : RangeStore} {r p : Interval} {v : UInt32}

/-- The complete ranges and the pending one. -/
def ranges (i : Intake) : List Interval := i.closed.toList ++ i.pending.toList

theorem store_eq_ok_iff : store ceiling s r = .ok t ↔ s.size < ceiling ∧ s.push r = .ok t := by
  unfold store
  split
  · next full =>
    constructor
    · nofun
    · rintro ⟨room, -⟩
      omega
  · next room =>
    cases s.push r with
    | error e => simp [Except.mapError]
    | ok u => simpa [Except.mapError] using fun _ => Nat.lt_of_not_le room

/-- A range becomes the pending one, joins it, or takes its place behind a gap. -/
theorem add_cases (h : i.add ceiling line r = .ok j) :
    (i.pending = none ∧ j = ⟨i.closed, some r⟩) ∨
    (∃ p, i.pending = some p ∧ p.low ≤ r.low ∧ r.low.toNat ≤ p.high.toNat + 1 ∧
      j = ⟨i.closed, some ⟨p.low, max p.high r.high⟩⟩) ∨
    ∃ p closed, i.pending = some p ∧ p.low ≤ r.low ∧ p.high.toNat + 1 < r.low.toNat ∧
      store ceiling i.closed p = .ok closed ∧ j = ⟨closed, some r⟩ := by
  unfold add at h
  split at h
  · next none => exact .inl ⟨none, (Except.ok.inj h).symm⟩
  · next p pending =>
    split at h
    · cases h
    · next sorted =>
      rw [UInt32.not_lt] at sorted
      split at h
      · next touching => exact .inr (.inl ⟨p, pending, sorted, touching, (Except.ok.inj h).symm⟩)
      · next gap =>
        cases stored : store ceiling i.closed p with
        | error e =>
          rw [stored] at h
          cases h
        | ok closed =>
          rw [stored] at h
          exact .inr (.inr ⟨p, closed, pending, sorted, Nat.lt_of_not_le gap, stored,
            (Except.ok.inj h).symm⟩)

/-- A range adds its values and no others. -/
theorem covered_add (h : i.add ceiling line r = .ok j) :
    Covered j.ranges v ↔ Covered i.ranges v ∨ r.Contains v := by
  rcases add_cases h with ⟨pending, rfl⟩ | ⟨p, pending, sorted, touching, rfl⟩ |
    ⟨p, closed, pending, -, -, stored, rfl⟩
  · simp [ranges, pending]
  · simp [ranges, pending, Interval.contains_merge sorted touching, or_assoc]
  · simp [ranges, pending, RangeStore.toList_push (store_eq_ok_iff.1 stored).2, or_assoc]

theorem size_add_le (h : i.add ceiling line r = .ok j) (hs : i.closed.size ≤ ceiling) :
    j.closed.size ≤ ceiling := by
  rcases add_cases h with ⟨-, rfl⟩ | ⟨p, -, -, -, rfl⟩ | ⟨p, closed, -, -, -, stored, rfl⟩
  · exact hs
  · exact hs
  · obtain ⟨room, pushed⟩ := store_eq_ok_iff.1 stored
    rw [RangeStore.size_push pushed]
    exact room

theorem finish_cases (h : i.finish ceiling = .ok s) :
    (i.pending = none ∧ i.closed = s) ∨
      ∃ p, i.pending = some p ∧ store ceiling i.closed p = .ok s := by
  unfold finish at h
  split at h
  · next none => exact .inl ⟨none, Except.ok.inj h⟩
  · next p pending => exact .inr ⟨p, pending, h⟩

/-- The pending range takes its place behind the complete ones. -/
theorem toList_finish (h : i.finish ceiling = .ok s) : s.toList = i.ranges := by
  rcases finish_cases h with ⟨pending, rfl⟩ | ⟨p, pending, stored⟩
  · simp [ranges, pending]
  · simp [ranges, pending, RangeStore.toList_push (store_eq_ok_iff.1 stored).2]

theorem size_finish_le (h : i.finish ceiling = .ok s) (hs : i.closed.size ≤ ceiling) :
    s.size ≤ ceiling := by
  rcases finish_cases h with ⟨-, rfl⟩ | ⟨p, -, stored⟩
  · exact hs
  · obtain ⟨room, pushed⟩ := store_eq_ok_iff.1 stored
    rw [RangeStore.size_push pushed]
    exact room

end Intake

section Lines

variable {ceiling number : Nat} {line : Bytes} {rest all : List Bytes} {i j : Intake}

theorem readLines_cons_eq_ok_iff : readLines ceiling number (line :: rest) i = .ok j ↔
    ∃ r k, readLine number line = .ok r ∧ i.add ceiling number r = .ok k ∧
      readLines ceiling (number + 1) rest k = .ok j := by
  rw [readLines]
  cases readLine number line with
  | error e => simp [bind, Except.bind]
  | ok r =>
    cases hadd : i.add ceiling number r with
    | error e => simp [bind, Except.bind, hadd]
    | ok k => simp [bind, Except.bind, hadd]

/-- Lines that are read all give a range that is not upside down. -/
theorem exists_range_of_readLines (h : readLines ceiling number all i = .ok j) :
    ∀ line ∈ all, ∃ r, StandsFor line r ∧ r.low ≤ r.high := by
  induction all generalizing number i with
  | nil => nofun
  | cons line rest ih =>
    obtain ⟨r, k, hline, -, hrest⟩ := readLines_cons_eq_ok_iff.1 h
    intro l hl
    rcases List.mem_cons.1 hl with rfl | hl
    · exact ⟨r, readLine_eq_ok_iff.1 hline⟩
    · exact ih hrest l hl

/-- Lines add the values of their ranges and no others. -/
theorem covered_readLines (h : readLines ceiling number all i = .ok j) (v : UInt32) :
    Covered j.ranges v ↔
      Covered i.ranges v ∨ ∃ line ∈ all, ∃ r, StandsFor line r ∧ r.Contains v := by
  induction all generalizing number i with
  | nil =>
    cases h
    simp
  | cons line rest ih =>
    obtain ⟨r, k, hline, hadd, hrest⟩ := readLines_cons_eq_ok_iff.1 h
    have stands := (readLine_eq_ok_iff.1 hline).1
    have here : (∃ q, StandsFor line q ∧ q.Contains v) ↔ r.Contains v := by
      constructor
      · rintro ⟨q, hq, hv⟩
        rw [stands.unique hq]
        exact hv
      · intro hv
        exact ⟨r, stands, hv⟩
    rw [ih hrest, Intake.covered_add hadd, or_assoc, ← here]
    simp only [List.mem_cons, or_and_right, exists_or, exists_eq_left]

theorem size_readLines_le (h : readLines ceiling number all i = .ok j)
    (hs : i.closed.size ≤ ceiling) : j.closed.size ≤ ceiling := by
  induction all generalizing number i with
  | nil =>
    cases h
    exact hs
  | cons line rest ih =>
    obtain ⟨r, k, -, hadd, hrest⟩ := readLines_cons_eq_ok_iff.1 h
    exact ih hrest (Intake.size_add_le hadd hs)

end Lines

theorem read_eq_ok_iff {document : Bytes} {ceiling : Nat} {s : RangeStore} :
    read document ceiling = .ok s ↔
      ∃ i, readLines ceiling 1 (lines document) .empty = .ok i ∧ i.finish ceiling = .ok s := by
  rw [read]
  cases readLines ceiling 1 (lines document) .empty with
  | error e => simp [bind, Except.bind]
  | ok i => simp [bind, Except.bind]

/-- The ranges that are read hold the values of the lines and no others. -/
theorem covered_read {document : Bytes} {ceiling : Nat} {s : RangeStore}
    (h : read document ceiling = .ok s) (v : UInt32) : Covered s.toList v ↔ Denotes document v := by
  obtain ⟨i, hlines, hfinish⟩ := read_eq_ok_iff.1 h
  rw [Intake.toList_finish hfinish, covered_readLines hlines]
  simp [Denotes, Intake.ranges, Intake.empty]

/-- In a document that is read every line gives a range that is not upside down. The ranges that
come out are canonical, no more than the ceiling allows, and hold the values of the lines and no
others. -/
theorem read_denotes {document : Bytes} {ceiling : Nat} {s : RangeStore}
    (h : read document ceiling = .ok s) :
    (∀ line ∈ lines document, ∃ r, StandsFor line r ∧ r.low ≤ r.high) ∧
      Canonical s.toList ∧ s.size ≤ ceiling ∧ ∀ v, Covered s.toList v ↔ Denotes document v := by
  obtain ⟨i, hlines, hfinish⟩ := read_eq_ok_iff.1 h
  have size := size_readLines_le hlines (Nat.zero_le _)
  exact ⟨exists_range_of_readLines hlines, s.toList_canonical, Intake.size_finish_le hfinish size,
    covered_read h⟩

/-- Lines that overlap, lie within each other, touch, repeat and leave a gap. -/
def overlapping : Bytes := "41..5A\n41..45 ; within\n5A..7A\n7b\n7B\n100\n".toUTF8.toList

/-- The two ranges of those lines. -/
def overlappingRanges : RangeStore := ⟨#[⟨0x41, 0x7B⟩, ⟨0x100, 0x100⟩], by decide⟩

theorem read_overlapping : read overlapping 2 = .ok overlappingRanges := by cbv

theorem read_denotes_overlapping :
    read overlapping 2 = .ok overlappingRanges ∧
      (∀ line ∈ lines overlapping, ∃ r, StandsFor line r ∧ r.low ≤ r.high) ∧
      Canonical overlappingRanges.toList ∧ overlappingRanges.size ≤ 2 ∧
      ∀ v, Covered overlappingRanges.toList v ↔ Denotes overlapping v :=
  ⟨read_overlapping, read_denotes read_overlapping⟩

end Document

end RangeLookup
