import RangeLookup.Checked.Document
import RangeLookup.RangeStore.Attempts
import RangeLookup.Proofs.Checked.Document
import RangeLookup.Proofs.RangeStore.OfList

/-!
# Stores under any pushes

A push is refused for the reason that the range gives against the ranges that are there
(`refusal?_eq_some_iff`), and for no other. By induction on the ranges a store holds those that were
not refused (`toList_attempts`), and each of them was judged against those that were not refused
before it (`refusal_of_record`). Building a store from a list stops at the first range that offends
(`foldlM_push_eq_error_iff`).

A store has no step between the ranges and the longer ones. An array that is pushed to in place could
be left half done, and the end of the last range could be too great for the sum with one. Neither
happens: a push that is refused has not come to the array yet (`Checked.pushInPlace_run`), and the
array is that of the store all along (`attempts_pushInPlace`).
-/

namespace RangeLookup

section Offence

variable {front : List Interval} {r : Interval} {e : PushError}

theorem Offends.not_canonical (h : Offends front r e) : ¬ Canonical (front ++ [r]) := by
  intro canonical
  obtain ⟨-, upright, before⟩ := canonical_concat_iff.1 canonical
  cases h with
  | inverted upsideDown => exact UInt32.not_lt.2 upright upsideDown
  | unsorted _ last overlaps =>
    have gap : _ + 2 ≤ r.low.toNat := before _ last
    rw [UInt32.le_iff_toNat_le] at overlaps
    omega
  | adjacent _ last touches =>
    have gap : _ + 2 ≤ r.low.toNat := before _ last
    omega

end Offence

namespace Checked

/-- A push that is refused leaves the array as it was. -/
theorem pushInPlace_run (r : Interval) (ranges : Array Interval) :
    (pushInPlace r).run ranges = (replacing push r).run ranges := by
  rw [replacing_run]
  unfold pushInPlace push
  by_cases inverted : r.high < r.low
  · rw [if_pos inverted, if_pos inverted]
    rfl
  · rw [if_neg inverted, if_neg inverted]
    simp only [EStateM.run_bind, EStateM.run_get]
    cases ranges.back? with
    | none => rfl
    | some prev =>
      by_cases overlaps : r.low ≤ prev.high
      · simp only [if_pos overlaps]
        rfl
      · simp only [if_neg overlaps]
        cases addWord prev.high 1 with
        | error stop => rfl
        | ok next =>
          show EStateM.run (if r.low = next then _ else _) ranges = _
          by_cases touches : r.low = next
          · simp only [bind, Except.bind, if_pos touches]
            rfl
          · simp only [bind, Except.bind, if_neg touches]
            rfl

end Checked

namespace RangeStore

variable {s t : RangeStore} {r : Interval} {e : PushError}

/-- The word after the end of a range is the integer after it, for a range that starts beyond. -/
theorem eq_add_one_iff {low high : UInt32} (h : ¬ low ≤ high) :
    low = high + 1 ↔ low.toNat = high.toNat + 1 := by
  have word := low.toNat_lt
  rw [UInt32.le_iff_toNat_le] at h
  rw [← UInt32.toNat_inj, UInt32.toNat_add]
  simp only [UInt32.reduceToNat]
  omega

/-- A range is refused for the first of the reasons that it gives against the last range. -/
theorem refusal?_eq_some_iff : s.refusal? r = some e ↔ Offends s.toList r e := by
  have last : s.toList.getLast? = s.intervals.back? := by rw [toList, Array.getLast?_toList]
  unfold refusal?
  rw [← last]
  constructor
  · intro h
    split at h
    · next upsideDown =>
      cases h
      exact .inverted upsideDown
    · next upright =>
      rw [UInt32.not_lt] at upright
      split at h
      · next prev found =>
        split at h
        · next overlaps =>
          cases h
          exact .unsorted upright found overlaps
        · next beyond =>
          split at h
          · next touches =>
            cases h
            exact .adjacent upright found ((eq_add_one_iff beyond).1 touches)
          · cases h
      · cases h
  · intro h
    cases h with
    | inverted upsideDown => rw [if_pos upsideDown]
    | unsorted upright found overlaps =>
      rw [if_neg (UInt32.not_lt.2 upright), found]
      exact if_pos overlaps
    | @adjacent prev upright found touches =>
      have beyond : ¬ r.low ≤ prev.high := by
        rw [UInt32.le_iff_toNat_le]
        omega
      rw [if_neg (UInt32.not_lt.2 upright), found]
      show (if r.low ≤ prev.high then _ else _) = _
      rw [if_neg beyond, if_pos ((eq_add_one_iff beyond).2 touches)]

theorem push_eq_error_iff_offends : s.push r = .error e ↔ Offends s.toList r e := by
  rw [push_eq_error_iff, refusal?_eq_some_iff]

theorem exists_push_iff : (∃ t, s.push r = .ok t) ↔ Canonical (s.toList ++ [r]) := by
  constructor
  · rintro ⟨t, pushed⟩
    rw [← toList_push pushed]
    exact t.toList_canonical
  · intro h
    exact ⟨⟨(s.toList ++ [r]).toArray, h⟩, push_eq_ok_iff.2 rfl⟩

/-- A list is not built into a store for the first range in it that offends those in front. -/
theorem foldlM_push_eq_error_iff {u : RangeStore} {ranges : List Interval} :
    ranges.foldlM push u = .error e ↔ ∃ front r back, ranges = front ++ r :: back ∧
      Canonical (u.toList ++ front) ∧ Offends (u.toList ++ front) r e := by
  induction ranges generalizing u with
  | nil => simp [pure, Except.pure]
  | cons first rest ih =>
    rw [List.foldlM_cons]
    cases hp : u.push first with
    | error reason =>
      have offends := push_eq_error_iff_offends.1 hp
      show Except.error reason = Except.error e ↔ _
      constructor
      · intro h
        cases h
        refine ⟨[], first, rest, rfl, ?_, ?_⟩
        · rw [List.append_nil]
          exact u.toList_canonical
        · rw [List.append_nil]
          exact offends
      · rintro ⟨front, r, back, split, canonical, other⟩
        cases front with
        | nil =>
          obtain ⟨rfl, rfl⟩ := List.cons.inj split
          rw [List.append_nil] at other
          rw [← hp, push_eq_error_iff_offends.2 other]
        | cons q more =>
          obtain ⟨rfl, rfl⟩ := List.cons.inj split
          rw [List.append_cons] at canonical
          exact absurd canonical.of_append_left offends.not_canonical
    | ok t =>
      have holds := toList_push hp
      show rest.foldlM push t = .error e ↔ _
      rw [ih, holds]
      constructor
      · rintro ⟨front, r, back, rfl, canonical, offends⟩
        refine ⟨first :: front, r, back, rfl, ?_, ?_⟩
        · rw [List.append_cons]
          exact canonical
        · rw [List.append_cons]
          exact offends
      · rintro ⟨front, r, back, split, canonical, offends⟩
        cases front with
        | nil =>
          obtain ⟨rfl, rfl⟩ := List.cons.inj split
          rw [List.append_nil] at offends
          cases hp.symm.trans (push_eq_error_iff_offends.2 offends)
        | cons q more =>
          obtain ⟨rfl, rfl⟩ := List.cons.inj split
          rw [List.append_cons] at canonical offends
          exact ⟨more, r, back, rfl, canonical, offends⟩

section Attempts

variable {front back : Record PushError} {refusal : Option PushError} {ranges : List Interval}

theorem toList_attempts (s : RangeStore) (ranges : List Interval) :
    (attempts (replacing push) s ranges).1.toList =
      s.toList ++ (attempts (replacing push) s ranges).2.accepted := by
  induction ranges generalizing s with
  | nil => exact (List.append_nil _).symm
  | cons r rest ih =>
    cases hp : s.push r with
    | ok t =>
      rw [attempts_cons_of_ok (replacing_of_ok hp)]
      show (attempts _ t rest).1.toList = s.toList ++ r :: (attempts _ t rest).2.accepted
      rw [ih, toList_push hp, List.append_assoc, List.singleton_append]
    | error reason =>
      rw [attempts_cons_of_error (replacing_of_error hp)]
      exact ih s

/-- Each range of a record was judged against what the ranges in front of it had left. -/
theorem refusal_of_record
    (h : (attempts (replacing push) s ranges).2 = front ++ (r, refusal) :: back) :
    (attempts (replacing push) s (front.map (·.1))).1.toList = s.toList ++ front.accepted ∧
      (attempts (replacing push) s (front.map (·.1))).1.refusal? r = refusal := by
  obtain ⟨same, one⟩ := record_eq_append h
  refine ⟨by rw [toList_attempts, same], ?_⟩
  cases hp : (attempts (replacing push) s (front.map (·.1))).1.push r with
  | ok t =>
    rw [attempts_cons_of_ok (replacing_of_ok hp)] at one
    cases one
    exact refusal?_eq_none_iff.2 (exists_push_iff.1 ⟨t, hp⟩)
  | error reason =>
    rw [attempts_cons_of_error (replacing_of_error hp)] at one
    cases one
    exact push_eq_error_iff.1 hp

/-- The array of a store stays the array of a store, and every push has the same result. -/
theorem attempts_pushInPlace (s : RangeStore) (ranges : List Interval) :
    attempts Checked.pushInPlace s.intervals ranges =
      ((attempts (replacing push) s ranges).1.intervals,
        (attempts (replacing push) s ranges).2.stops) := by
  induction ranges generalizing s with
  | nil => rfl
  | cons r rest ih =>
    have same := Checked.push_eq s r
    have run := Checked.pushInPlace_run r s.intervals
    cases hp : s.push r with
    | ok t =>
      rw [hp] at same
      rw [replacing_of_ok same] at run
      rw [attempts_cons_of_ok (replacing_of_ok hp), attempts_cons_of_ok run, ih]
      rfl
    | error reason =>
      rw [hp] at same
      rw [replacing_of_error same] at run
      rw [attempts_cons_of_error (replacing_of_error hp), attempts_cons_of_error run, ih]
      rfl

/-- A range that is refused leaves the array as it is. -/
theorem attempts_concat_of_refused
    (refused : (attempts (replacing push) s ranges).1.refusal? r = some e) :
    (attempts Checked.pushInPlace s.intervals (ranges ++ [r])).1 =
      (attempts Checked.pushInPlace s.intervals ranges).1 := by
  have kept := replacing_of_error (push_eq_error_iff.2 refused)
  rw [attempts_pushInPlace, attempts_pushInPlace, attempts_append, attempts_cons_of_error kept]
  rfl

end Attempts

/-- Whatever ranges are pushed one after another, from no ranges at all, the store is canonical and
holds those that were not refused, in order; and an array that is pushed to in place holds the same. A
range was refused exactly when it would have made the ranges no longer canonical, for the reason that
it gives against the last of them, and it has left the array as it was. So a store is built from a
list exactly when the list is canonical, and holds the list; otherwise the first range that offends
those in front is the error. -/
theorem attempts_keep_accepted (ranges : List Interval) :
    (∃ (s : RangeStore) (record : Record PushError),
      attempts (replacing push) empty ranges = (s, record) ∧
      attempts Checked.pushInPlace #[] ranges = (s.intervals, record.stops) ∧
      record.map (·.1) = ranges ∧ Canonical s.toList ∧ s.toList = record.accepted ∧
      ∀ (front : Record PushError) r refusal back, record = front ++ (r, refusal) :: back →
        (refusal = none ↔ Canonical (front.accepted ++ [r])) ∧
          (∀ e, refusal = some e ↔ Offends front.accepted r e) ∧
          ∀ e, refusal = some e →
            (attempts Checked.pushInPlace #[] (front.map (·.1) ++ [r])).1 =
              (attempts Checked.pushInPlace #[] (front.map (·.1))).1) ∧
    (∀ s : RangeStore, ofList ranges = .ok s → s.toList = ranges) ∧
    ((∃ s, ofList ranges = .ok s) ↔ Canonical ranges) ∧
    ∀ e, ofList ranges = .error e ↔ ∃ front r back, ranges = front ++ r :: back ∧
      Canonical front ∧ ¬ Canonical (front ++ [r]) ∧ Offends front r e := by
  refine ⟨⟨_, _, rfl, attempts_pushInPlace empty ranges, map_fst_attempts _ empty ranges,
    toList_canonical _, toList_attempts empty ranges, ?_⟩, fun s => ofList_eq_ok_iff.1, ?_, ?_⟩
  · intro front r refusal back h
    obtain ⟨holds, rfl⟩ := refusal_of_record h
    rw [toList_empty, List.nil_append] at holds
    rw [← holds]
    refine ⟨refusal?_eq_none_iff, fun e => refusal?_eq_some_iff, fun e refused => ?_⟩
    exact attempts_concat_of_refused (s := empty) refused
  · constructor
    · rintro ⟨s, built⟩
      rw [← ofList_eq_ok_iff.1 built]
      exact s.toList_canonical
    · exact exists_ofList
  · intro e
    rw [ofList, foldlM_push_eq_error_iff, toList_empty]
    constructor
    · rintro ⟨front, r, back, split, canonical, offends⟩
      exact ⟨front, r, back, split, canonical, offends.not_canonical, offends⟩
    · rintro ⟨front, r, back, split, canonical, -, offends⟩
      exact ⟨front, r, back, split, canonical, offends⟩

end RangeStore

end RangeLookup
