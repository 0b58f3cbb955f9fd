import RangeLookup.Checked
import RangeLookup.Cost
import RangeLookup.Document

/-!
# Reading a document with checked operations

The ranges are an array and nothing more: that they are canonical is not part of the data, and what
is added to an upper bound can overflow.
-/

namespace RangeLookup

namespace Checked

open Document

/-- The ranges with one more at their end. -/
def push (ranges : Array Interval) (r : Interval) : Checked (Array Interval) :=
  if r.high < r.low then fail (.interval (.inverted r.low r.high))
  else match ranges.back? with
    | none => pure (ranges.push r)
    | some prev =>
      if r.low ≤ prev.high then fail (.interval (.unsorted r.low))
      else do
        if r.low = (← addWord prev.high 1) then fail (.interval (.adjacent r.low))
        else return ranges.push r

/-- The leading hexadecimal number that fits a word, and the text after it. -/
def number? (text : List Char) : Checked (Option (UInt32 × List Char)) := do
  let body := dropMarker text
  let bound := body.findIdx fun c => !Radix.hexadecimal.isDigit c
  if bound = 0 then return none
  else
    let value := Radix.hexadecimal.value (← upTo body bound)
    if value < 4294967296 then return some (← wordOf value, ← upFrom body bound)
    else return none

/-- The upper bound that the text after the lower bound gives. -/
def upperBound? : List Char → Checked (Option UInt32)
  | '.' :: '.' :: rest => do return (← number? rest).map (·.1)
  | _ => pure none

/-- The bounds that a line gives. -/
def range? (line : List Char) : Checked (Option Interval) := do
  match ← number? (Text.trimStart line) with
  | none => return none
  | some (low, rest) => return some ⟨low, (← upperBound? rest).getD low⟩

/-- The range that a line gives. -/
def readLine (number : Nat) (line : Bytes) : Checked Interval :=
  match decode? line with
  | none => fail .notText
  | some text => do
    match ← range? text.toList with
    | none => fail (.malformedInput number text)
    | some r => if r.high < r.low then fail (.invertedRange number r.low r.high) else return r

/-- The ranges that are complete, and the one that the next line may still extend. -/
structure Intake where
  closed : Array Interval
  pending : Option Interval

/-- The range goes to the others, of which there are as many as the ceiling allows. -/
def store (ceiling : Nat) (ranges : Array Interval) (r : Interval) : Checked (Array Interval) :=
  if ceiling ≤ ranges.size then fail (.capacityExceeded ceiling) else push ranges r

/-- The next range in line, from the line with the given number. -/
def Intake.add (ceiling number : Nat) (i : Intake) (r : Interval) : Checked Intake :=
  match i.pending with
  | none => pure { i with pending := some r }
  | some p =>
    if r.low < p.low then fail (.unsortedInput number r.low)
    else if r.low ≤ saturate (p.high.toNat + 1) then
      pure { i with pending := some ⟨p.low, max p.high r.high⟩ }
    else do
      return ⟨← store ceiling i.closed p, some r⟩

/-- All ranges, the pending one included. -/
def Intake.finish (ceiling : Nat) (i : Intake) : Checked (Array Interval) :=
  match i.pending with
  | none => pure i.closed
  | some p => store ceiling i.closed p

/-- The number of the line at an index. -/
def lineNumber (index : Nat) : Checked Nat :=
  if index + 1 < indices then pure (index + 1) else fault .lineNumber

/-- The lines from an index on are added to the ranges so far. -/
def readLines (ceiling : Nat) : Nat → List Bytes → Intake → Checked Intake
  | _, [], i => pure i
  | index, line :: rest, i => do
    let number ← lineNumber index
    let r ← readLine number line
    readLines ceiling number rest (← i.add ceiling number r)

/-- The ranges of a document, at most as many as the ceiling allows. -/
def read (document : Bytes) (ceiling : Nat) : Checked (Array Interval) := do
  (← readLines ceiling 0 (lines document) ⟨#[], none⟩).finish ceiling

end Checked

end RangeLookup
