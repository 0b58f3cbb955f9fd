import RangeLookup.Checked
import RangeLookup.RangeStore

/-!
# Pushes that may be refused

Ranges are pushed one after another and the store is changed in place. Each push has a result of its
own, and the ranges that come later are pushed all the same, so that a sequence of ranges makes a
record of what became of them. Nothing is put back when a push is refused: the next one goes on with
what it left.
-/

namespace RangeLookup

/-- What became of ranges that were to be pushed: for each of them the reason why it was refused, if
it was. -/
abbrev Record (Reason : Type) := List (Interval × Option Reason)

/-- The ranges that were not refused, in order. -/
def Record.accepted {Reason : Type} (record : Record Reason) : List Interval :=
  (record.filter (·.2.isNone)).map (·.1)

/-- The record with the reasons as they stop a computation. -/
def Record.stops (record : Record PushError) : Record Stop :=
  record.map fun entry => (entry.1, entry.2.map fun reason => .error (.interval reason))

/-- The ranges are pushed in order. -/
def attempts {Ranges Reason : Type} (push : Interval → EStateM Reason Ranges Unit) :
    Ranges → List Interval → Ranges × Record Reason
  | held, [] => (held, [])
  | held, r :: rest =>
    match (push r).run held with
    | .ok () left =>
      let (final, record) := attempts push left rest
      (final, (r, none) :: record)
    | .error reason left =>
      let (final, record) := attempts push left rest
      (final, (r, some reason) :: record)

/-- A push that has longer ranges as its result, which take the place of those that were there. -/
def replacing {Ranges Reason : Type} (push : Ranges → Interval → Except Reason Ranges)
    (r : Interval) : EStateM Reason Ranges Unit := do
  set (← ofExcept (push (← get) r))

/-- A push into the array of the ranges. What was done to the array stays done if an error comes. -/
def Checked.pushInPlace (r : Interval) : EStateM Stop (Array Interval) Unit := do
  if r.high < r.low then throw (.error (.interval (.inverted r.low r.high)))
  if let some prev := (← get).back? then
    if r.low ≤ prev.high then throw (.error (.interval (.unsorted r.low)))
    if r.low = (← ofExcept (addWord prev.high 1)) then
      throw (.error (.interval (.adjacent r.low)))
  modify (·.push r)

section

variable {Ranges Reason : Type} {push : Interval → EStateM Reason Ranges Unit}
  {held left : Ranges} {reason : Reason} {r : Interval} {rest : List Interval}

theorem attempts_cons_of_ok (h : (push r).run held = .ok () left) :
    attempts push held (r :: rest) =
      ((attempts push left rest).1, (r, none) :: (attempts push left rest).2) := by
  rw [attempts, h]

theorem attempts_cons_of_error (h : (push r).run held = .error reason left) :
    attempts push held (r :: rest) =
      ((attempts push left rest).1, (r, some reason) :: (attempts push left rest).2) := by
  rw [attempts, h]

/-- Ranges behind others are pushed into what those have left. -/
theorem attempts_append (push : Interval → EStateM Reason Ranges Unit) (held : Ranges)
    (front back : List Interval) :
    attempts push held (front ++ back) =
      ((attempts push (attempts push held front).1 back).1,
        (attempts push held front).2 ++ (attempts push (attempts push held front).1 back).2) := by
  induction front generalizing held with
  | nil => rfl
  | cons r rest ih =>
    cases pushed : (push r).run held with
    | ok _ left => simp only [List.cons_append, attempts_cons_of_ok pushed, ih]
    | error reason left => simp only [List.cons_append, attempts_cons_of_error pushed, ih]

/-- The record is about the ranges in order. -/
theorem map_fst_attempts (push : Interval → EStateM Reason Ranges Unit) (held : Ranges)
    (ranges : List Interval) : (attempts push held ranges).2.map (·.1) = ranges := by
  induction ranges generalizing held with
  | nil => rfl
  | cons r rest ih =>
    cases pushed : (push r).run held with
    | ok _ left => rw [attempts_cons_of_ok pushed, List.map_cons, ih]
    | error reason left => rw [attempts_cons_of_error pushed, List.map_cons, ih]

/-- The beginning of a record is the record of its ranges, and the range behind it was pushed into
what these had left. -/
theorem record_eq_append {held : Ranges} {ranges : List Interval} {front back : Record Reason}
    {refusal : Option Reason} (h : (attempts push held ranges).2 = front ++ (r, refusal) :: back) :
    (attempts push held (front.map (·.1))).2 = front ∧
      (attempts push (attempts push held (front.map (·.1))).1 [r]).2 = [(r, refusal)] := by
  have split : ranges = front.map (·.1) ++ ([r] ++ back.map (·.1)) := by
    rw [← map_fst_attempts push held ranges, h, List.map_append, List.map_cons,
      List.singleton_append]
  rw [split, attempts_append, attempts_append] at h
  have before : ((attempts push held (front.map (·.1))).2).length = front.length := by
    rw [← List.length_map (·.1), map_fst_attempts, List.length_map]
  obtain ⟨same, behind⟩ := List.append_inj h before
  have one : (attempts push (attempts push held (front.map (·.1))).1 [r]).2.length = 1 := by
    rw [← List.length_map (·.1), map_fst_attempts, List.length_singleton]
  rw [← List.singleton_append] at behind
  exact ⟨same, (List.append_inj behind one).1⟩

end

section Replacing

variable {Ranges Reason : Type} {push : Ranges → Interval → Except Reason Ranges}
  {held longer : Ranges} {reason : Reason} {r : Interval}

theorem replacing_run (push : Ranges → Interval → Except Reason Ranges) (held : Ranges)
    (r : Interval) : (replacing push r).run held =
      match push held r with
      | .ok longer => .ok () longer
      | .error reason => .error reason held := by
  show (do set (← ofExcept (push held r)) : EStateM Reason Ranges Unit).run held = _
  cases push held r <;> rfl

theorem replacing_of_ok (h : push held r = .ok longer) :
    (replacing push r).run held = .ok () longer := by
  rw [replacing_run, h]

theorem replacing_of_error (h : push held r = .error reason) :
    (replacing push r).run held = .error reason held := by
  rw [replacing_run, h]

end Replacing

/-- What is wrong with a range behind the ones in front: it is upside down, or else it starts no later
than the last of them ends, or else directly after that. -/
inductive Offends (front : List Interval) (r : Interval) : PushError → Prop
  | inverted (upsideDown : r.high < r.low) : Offends front r (.inverted r.low r.high)
  | unsorted {prev : Interval} (upright : r.low ≤ r.high) (last : front.getLast? = some prev)
      (overlaps : r.low ≤ prev.high) : Offends front r (.unsorted r.low)
  | adjacent {prev : Interval} (upright : r.low ≤ r.high) (last : front.getLast? = some prev)
      (touches : r.low.toNat = prev.high.toNat + 1) : Offends front r (.adjacent r.low)

end RangeLookup
