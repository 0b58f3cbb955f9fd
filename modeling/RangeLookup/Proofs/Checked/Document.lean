import Mathlib
import RangeLookup.Checked.Document

/-!
# Documents without a fault

Documents are read without a fault. What is added to the upper bound of a range stays a word because
the next range starts above it, and the bounds of a numeral lie within its line. The number of a
line is the one thing that the data do not bound: it is an index as long as the document has fewer
bytes than there are indices (`read_eq_or_fault`).
-/

namespace RangeLookup

theorem RangeStore.map_intervals_push (s : RangeStore) (r : Interval) :
    (s.push r).map intervals =
      match s.refusal? r with
      | some e => .error e
      | none => .ok (s.intervals.push r) := by
  unfold push
  split
  · next h => simp [h, Except.map]
  · next h => simp [h, Except.map]

/-- A document has no more lines than bytes. -/
theorem Document.length_lines_le (document : Bytes) :
    (lines document).length ≤ document.length := by
  induction document using lines_induction with
  | last rest none =>
    rw [lines_of_no_feed none]
    cases rest <;> simp
  | feed line rest none ih =>
    rw [lines_append_feed none]
    simp only [List.length_cons, List.length_append]
    omega

/-- The ranges without the proof that they are canonical. -/
def Document.Intake.raw (i : Document.Intake) : Checked.Intake := ⟨i.closed.intervals, i.pending⟩

namespace Checked

open Document

/-- The sum in a push is a word, since a range that is not refused before it starts above the
upper bound. -/
theorem push_eq (s : RangeStore) (r : Interval) :
    push s.intervals r =
      plain (((s.push r).map RangeStore.intervals).mapError Error.interval) := by
  rw [RangeStore.map_intervals_push, push, RangeStore.refusal?]
  by_cases inverted : r.high < r.low
  · simp [inverted, Except.mapError]
  · simp only [inverted, if_false]
    cases s.intervals.back? with
    | none => rfl
    | some prev =>
      by_cases unsorted : r.low ≤ prev.high
      · simp [unsorted, Except.mapError]
      · have above : prev.high.toNat < r.low.toNat := by
          rw [UInt32.le_iff_toNat_le] at unsorted
          omega
        have word := r.low.toNat_lt
        have sum : addWord prev.high 1 = pure (prev.high + 1) :=
          addWord_eq (by simp only [UInt32.reduceToNat]; omega)
        simp only [unsorted, if_false, sum, pure_bind]
        by_cases adjacent : r.low = prev.high + 1
        · simp [adjacent, Except.mapError]
        · simp [adjacent, Except.mapError]

section Line

theorem number?_eq (text : List Char) : number? text = pure (Document.number? text) := by
  have digits : (dropMarker text).takeWhile Radix.hexadecimal.isDigit = (dropMarker text).take
      ((dropMarker text).findIdx fun c => !Radix.hexadecimal.isDigit c) :=
    List.takeWhile_eq_take_findIdx_not
  have rest : (dropMarker text).dropWhile Radix.hexadecimal.isDigit = (dropMarker text).drop
      ((dropMarker text).findIdx fun c => !Radix.hexadecimal.isDigit c) :=
    List.dropWhile_eq_drop_findIdx_not
  have within : (dropMarker text).findIdx (fun c => !Radix.hexadecimal.isDigit c) ≤
      (dropMarker text).length := List.findIdx_le_length
  unfold number? Document.number?
  simp only [digits, rest, upTo_eq within, upFrom_eq within, pure_bind]
  generalize (dropMarker text).findIdx (fun c => !Radix.hexadecimal.isDigit c) = bound at within ⊢
  have empty : ((dropMarker text).take bound).isEmpty = decide (bound = 0) := by
    rw [Bool.eq_iff_iff, List.isEmpty_iff, decide_eq_true_iff, List.take_eq_nil_iff]
    constructor
    · rintro (zero | nil)
      · exact zero
      · rw [nil] at within
        exact Nat.le_zero.1 within
    · exact .inl
  rw [empty]
  by_cases none : bound = 0
  · simp [none]
  · by_cases word : Radix.hexadecimal.value ((dropMarker text).take bound) < 4294967296
    · simp [none, word, wordOf_eq word]
    · simp [none, word]

theorem upperBound?_eq (text : List Char) : upperBound? text = pure (Document.upperBound? text) := by
  fun_cases Document.upperBound? text with
  | case1 rest =>
    rw [upperBound?, number?_eq]
    rfl
  | case2 text other =>
    unfold upperBound?
    split
    · exact absurd rfl (other _)
    · rfl

theorem range?_eq (line : List Char) : range? line = pure (Document.range? line) := by
  unfold range? Document.range?
  rw [number?_eq, pure_bind]
  cases Document.number? (Text.trimStart line) with
  | none => rfl
  | some found =>
    obtain ⟨low, rest⟩ := found
    simp only [upperBound?_eq, pure_bind]
    rfl

theorem readLine_eq (number : Nat) (line : Bytes) :
    readLine number line = plain (Document.readLine number line) := by
  unfold readLine Document.readLine
  cases decode? line with
  | none => rfl
  | some text =>
    simp only [range?_eq, pure_bind]
    cases Document.range? text.toList with
    | none => rfl
    | some r =>
      by_cases inverted : r.high < r.low
      · simp only [if_pos inverted]
        rw [plain_error]
      · simp only [if_neg inverted]
        rw [plain_ok]

end Line

section Lines

variable (ceiling number : Nat) (i : Document.Intake) (r : Interval)

theorem store_eq (s : RangeStore) :
    store ceiling s.intervals r =
      plain ((Document.Intake.store ceiling s r).map RangeStore.intervals) := by
  unfold store Document.Intake.store
  by_cases full : ceiling ≤ s.size
  · have full' : ceiling ≤ s.intervals.size := full
    simp [full, full', Except.map]
  · have room : ¬ ceiling ≤ s.intervals.size := full
    rw [if_neg full, if_neg room, push_eq]
    cases s.push r <;> rfl

theorem add_eq : i.raw.add ceiling number r = plain ((i.add ceiling number r).map (·.raw)) := by
  unfold Intake.add Document.Intake.add Document.Intake.raw
  cases i.pending with
  | none => rfl
  | some p =>
    have next : r.low ≤ saturate (p.high.toNat + 1) ↔ r.low.toNat ≤ p.high.toNat + 1 := by
      have word := r.low.toNat_lt
      rw [UInt32.le_iff_toNat_le, toNat_saturate]
      omega
    simp only [next]
    by_cases unsorted : r.low < p.low
    · simp [unsorted, Except.map]
    · by_cases joined : r.low.toNat ≤ p.high.toNat + 1
      · simp [unsorted, joined, Except.map]
      · simp only [unsorted, joined, if_false, store_eq, plain_map]
        cases Document.Intake.store ceiling i.closed p <;> rfl

theorem finish_eq : i.raw.finish ceiling = plain ((i.finish ceiling).map RangeStore.intervals) := by
  unfold Intake.finish Document.Intake.finish Document.Intake.raw
  cases i.pending with
  | none => rfl
  | some p => exact store_eq ceiling p i.closed

/-- Lines are read without a fault as long as there are indices for them. Every line takes the next
index, so what the indices have to hold is where the lines begin and how many they are. -/
theorem readLines_eq_or_fault (all : List Bytes) (index : Nat) :
    readLines ceiling index all i.raw =
        plain ((Document.readLines ceiling (index + 1) all i).map (·.raw)) ∨
      readLines ceiling index all i.raw = fault .lineNumber ∧ indices ≤ index + all.length := by
  induction all generalizing index i with
  | nil => exact .inl rfl
  | cons line rest ih =>
    rw [readLines, Document.readLines, List.length_cons]
    by_cases room : index + 1 < indices
    · rw [lineNumber, if_pos room, pure_bind, readLine_eq]
      simp only [add_eq, plain_map, plain_bind, bind_assoc, pure_bind]
      cases Document.readLine (index + 1) line with
      | error e => exact .inl rfl
      | ok r =>
        simp only [plain_ok, pure_bind]
        cases i.add ceiling (index + 1) r with
        | error e => exact .inl rfl
        | ok j =>
          rcases ih j (index + 1) with same | ⟨faults, long⟩
          · rw [plain_map] at same
            exact .inl same
          · exact .inr ⟨faults, by omega⟩
    · rw [lineNumber, if_neg room]
      exact .inr ⟨rfl, by omega⟩

end Lines

/-- A document is read without a fault unless it has as many bytes as there are indices. -/
theorem read_eq_or_fault (document : Bytes) (ceiling : Nat) :
    read document ceiling = plain ((Document.read document ceiling).map RangeStore.intervals) ∨
      read document ceiling = fault .lineNumber ∧ indices ≤ document.length := by
  have length := length_lines_le document
  have start : (⟨#[], none⟩ : Intake) = Document.Intake.empty.raw := rfl
  unfold read Document.read
  rw [start]
  rcases readLines_eq_or_fault ceiling .empty (lines document) 0 with same | ⟨faults, long⟩
  · left
    rw [same]
    cases Document.readLines ceiling (0 + 1) (lines document) .empty with
    | error e => rfl
    | ok i => exact finish_eq ceiling i
  · right
    rw [faults]
    exact ⟨rfl, by omega⟩

end Checked

end RangeLookup
