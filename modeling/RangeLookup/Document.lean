import RangeLookup.Document.Grammar
import RangeLookup.Document.Lines
import RangeLookup.Error

/-!
# Documents of ranges

A document has one range a line. Lines come in the order of their lower bounds; a line that overlaps
the range before it or touches it extends that range, so that the ranges that reach the store are
canonical.
-/

namespace RangeLookup

namespace Document

/-- The ranges that are complete, and the one that the next line may still extend. -/
structure Intake where
  closed : RangeStore
  pending : Option Interval

namespace Intake

def empty : Intake := ⟨.empty, none⟩

/-- The range goes into the store, which holds as many as the ceiling allows. -/
def store (ceiling : Nat) (s : RangeStore) (r : Interval) : Except Error RangeStore :=
  if ceiling ≤ s.size then .error (.capacityExceeded ceiling)
  else (s.push r).mapError .interval

/-- The next range in line, from the line with the given number. -/
def add (ceiling line : Nat) (i : Intake) (r : Interval) : Except Error Intake :=
  match i.pending with
  | none => .ok { i with pending := some r }
  | some p =>
    if r.low < p.low then .error (.unsortedInput line r.low)
    else if r.low.toNat ≤ p.high.toNat + 1 then
      .ok { i with pending := some ⟨p.low, max p.high r.high⟩ }
    else do
      return ⟨← store ceiling i.closed p, some r⟩

/-- All ranges, the pending one included. -/
def finish (ceiling : Nat) (i : Intake) : Except Error RangeStore :=
  match i.pending with
  | none => .ok i.closed
  | some p => store ceiling i.closed p

end Intake

/-- The range that a line gives. -/
def readLine (number : Nat) (line : Bytes) : Except Error Interval :=
  match decode? line with
  | none => .error .notText
  | some text =>
    match range? text.toList with
    | none => .error (.malformedInput number text)
    | some r => if r.high < r.low then .error (.invertedRange number r.low r.high) else .ok r

/-- The lines from the given number on are added to the ranges so far. -/
def readLines (ceiling : Nat) : Nat → List Bytes → Intake → Except Error Intake
  | _, [], i => .ok i
  | number, line :: rest, i => do
    let r ← readLine number line
    readLines ceiling (number + 1) rest (← i.add ceiling number r)

/-- The ranges of a document, at most as many as the ceiling allows. -/
def read (document : Bytes) (ceiling : Nat) : Except Error RangeStore := do
  (← readLines ceiling 1 (lines document) .empty).finish ceiling

end Document

end RangeLookup
