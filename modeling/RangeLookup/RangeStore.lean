import RangeLookup.Interval
import RangeLookup.Numeral

/-!
# The store of ranges

The store is a canonical sequence that grows at its end. A push is refused for the first of three
reasons that applies, and a refused push has no result; `refusal?_eq_none_iff` says that a push is
accepted exactly when the longer sequence is canonical, and `toList_push` what it holds.
-/

namespace RangeLookup

/-- Why a range cannot follow the ranges of a store. -/
inductive PushError where
  /-- The last value lies below the first. -/
  | inverted (low high : UInt32)
  /-- The range starts at or before the end of the last one. -/
  | unsorted (low : UInt32)
  /-- The range starts directly after the last one and belongs into it. -/
  | adjacent (low : UInt32)
  deriving DecidableEq, Repr

def PushError.message : PushError → String
  | inverted low high =>
    "interval " ++ markedHex low.toNat ++ ".." ++ markedHex high.toNat ++ " is inverted"
  | unsorted low =>
    "interval starting at " ++ markedHex low.toNat ++ " overlaps or precedes the previous interval"
  | adjacent low =>
    "interval starting at " ++ markedHex low.toNat ++ " is adjacent to the previous interval"

/-- Ranges in canonical order. -/
structure RangeStore where
  intervals : Array Interval
  canonical : Canonical intervals.toList

namespace RangeStore

/-- The ranges in order. -/
def toList (s : RangeStore) : List Interval := s.intervals.toList

def empty : RangeStore := ⟨#[], .nil⟩

def size (s : RangeStore) : Nat := s.intervals.size

def isEmpty (s : RangeStore) : Bool := s.intervals.isEmpty

/-- The range at an index; past the end, the range that holds zero alone. -/
def get (s : RangeStore) (i : Nat) : Interval := s.intervals.getD i ⟨0, 0⟩

/-- The ranges from index `first` to index `last`. -/
def slice (s : RangeStore) (first last : Nat) : List Interval :=
  (s.intervals.extract first (last + 1)).toList

/-- Why the range cannot be pushed, if there is a reason. -/
def refusal? (s : RangeStore) (r : Interval) : Option PushError :=
  if r.high < r.low then some (.inverted r.low r.high)
  else match s.intervals.back? with
    | some prev =>
      if r.low ≤ prev.high then some (.unsorted r.low)
      else if r.low = prev.high + 1 then some (.adjacent r.low)
      else none
    | none => none

theorem ext {s t : RangeStore} (h : s.toList = t.toList) : s = t := by
  cases s; cases t
  simpa [toList, Array.toList_inj] using h

@[simp] theorem toList_empty : empty.toList = [] := rfl

theorem size_eq (s : RangeStore) : s.size = s.toList.length := by simp [size, toList]

theorem toList_canonical (s : RangeStore) : Canonical s.toList := s.canonical

/-- A range is accepted exactly when the sequence with it is canonical. -/
theorem refusal?_eq_none_iff {s : RangeStore} {r : Interval} :
    s.refusal? r = none ↔ Canonical (s.toList ++ [r]) := by
  have upright : ¬ r.high < r.low ↔ r.low ≤ r.high := UInt32.not_lt
  rw [canonical_concat_iff, refusal?, toList, Array.getLast?_toList]
  have hc := s.canonical
  by_cases hr : r.high < r.low
  · have := mt upright.2 (not_not_intro hr)
    simp [hr, this]
  · cases hb : s.intervals.back? with
    | none => simp [hr, hc, upright.1 hr]
    | some prev =>
      have gap : (¬ r.low ≤ prev.high ∧ ¬ r.low = prev.high + 1) ↔ prev.Before r := by
        have := prev.high.toNat_lt
        have := r.low.toNat_lt
        rw [UInt32.le_iff_toNat_le, ← UInt32.toNat_inj, UInt32.toNat_add, Interval.Before]
        simp only [UInt32.reduceToNat]
        omega
      simp only [hr, if_false, hc, upright.1 hr, true_and, Option.mem_some_iff, forall_eq', ← gap]
      by_cases h₁ : r.low ≤ prev.high
      · simp [h₁]
      · rw [if_neg h₁]
        by_cases h₂ : r.low = prev.high + 1
        · rw [if_pos h₂]
          exact ⟨nofun, fun h => absurd h₂ h.2⟩
        · simp [h₁, h₂]

/-- The store with one more range at its end. -/
def push (s : RangeStore) (r : Interval) : Except PushError RangeStore :=
  match h : s.refusal? r with
  | some e => .error e
  | none =>
    .ok ⟨s.intervals.push r, by
      simpa [toList, Array.toList_push] using refusal?_eq_none_iff.1 h⟩

/-- The store that holds the ranges in order; the first that is refused is the error. -/
def ofList (ranges : List Interval) : Except PushError RangeStore := ranges.foldlM push empty

theorem push_eq_error_iff {s : RangeStore} {r : Interval} {e : PushError} :
    s.push r = .error e ↔ s.refusal? r = some e := by
  unfold push
  split <;> simp_all

theorem toList_push {s t : RangeStore} {r : Interval} (h : s.push r = .ok t) :
    t.toList = s.toList ++ [r] := by
  unfold push at h
  split at h
  · cases h
  · cases h; simp [toList]

end RangeStore

end RangeLookup
