import RangeLookup.Decimal.Reading
import RangeLookup.Log.Pattern

/-!
# Directives of a log filter

A directive gives the detail of the log for the parts of the program whose names start with its own,
or for the events during a piece of work that it names in brackets:

    info
    part=debug
    part[work{field=1}]=trace

What a field is compared with has to be a number or a pattern.
-/

namespace RangeLookup.Log

/-- What the value of a field is compared with. -/
inductive Comparand where
  /-- A number without a sign, within 64 bits. -/
  | number (n : Nat)
  /-- A pattern, or a number of another kind; no value at hand equals it. -/
  | other
  deriving DecidableEq, Repr

/-- A value that a piece of work is described by: a name, and perhaps what the value has to be. -/
structure FieldMatch where
  name : String
  value : Option Comparand
  deriving DecidableEq, Repr

/-- How much detail of which events a log shows; zero is none. -/
structure Directive where
  detail : Nat
  part : Option String
  work : Option String
  fields : List FieldMatch
  deriving DecidableEq, Repr

/-- The detail that a word or a number up to five stands for. -/
def detail? (text : List Char) : Option Nat :=
  match readWord? text with
  | some n => if n ≤ 5 then some n else none
  | none =>
    let word := String.ofList (text.map Char.toLower)
    if word = "off" then some 0
    else if word = "" ∨ word = "error" then some 1
    else if word = "warn" then some 2
    else if word = "info" then some 3
    else if word = "debug" then some 4
    else if word = "trace" then some 5
    else none

/-- What a text says that a value has to be. -/
def comparand? (text : List Char) : Option Comparand :=
  match readWord? text with
  | some n => some (.number n)
  | none => if (Decimal.float? text).isSome || isPattern text then some .other else none

/-- A field: its name, and what follows the first equals sign up to the next. -/
def fieldMatch? (text : List Char) : Option FieldMatch :=
  let name := String.ofList (text.takeWhile (· != '='))
  match text.dropWhile (· != '=') with
  | [] => some ⟨name, none⟩
  | _ :: tail => (comparand? (tail.takeWhile (· != '='))).map fun value => ⟨name, some value⟩

/-- The directive with one more field, unless there is no text for it or no value in it. -/
def Directive.addField? (d : Directive) (text : List Char) : Option Directive :=
  if text.isEmpty then none
  else (fieldMatch? text).map fun field => { d with fields := d.fields ++ [field] }

/-- What comes next in a directive. -/
inductive Reading where
  | start
  /-- A level or the name of a part, from the position given. -/
  | front (position : Nat)
  /-- The name of a piece of work. -/
  | work (position : Nat)
  /-- A field that describes the work. -/
  | field (position : Nat)
  /-- The bracket that closes the fields. -/
  | closing
  /-- The sign before the level, or the end. -/
  | equals
  | level (position : Nat)

/-- The text from one position up to another. -/
def slice (text : List Char) (start stop : Nat) : List Char := (text.take stop).drop start

/-- Whether a character may start a level or the name of a part. -/
def startsName (c : Char) : Bool :=
  c == '-' || c == ':' || c == '_' || Text.isAlphanumeric c

/-- One character of a directive at its position; texts are cut from `whole`. -/
def step (whole : List Char) (position : Nat) (c : Char) :
    Reading × Directive → Option (Reading × Directive)
  | (.start, d) =>
    if c = '[' then some (.work (position + 1), d)
    else if startsName c then some (.front position, d)
    else none
  | (.front start, d) =>
    let front := some (String.ofList (slice whole start position))
    if c = '=' then some (.level (position + 1), { d with part := front })
    else if c = '[' then some (.work (position + 1), { d with part := front })
    else some (.front start, d)
  | (.work start, d) =>
    let name := slice whole start position
    if c = ']' then some (.equals, { d with work := some (String.ofList name) })
    else if c = '\x7b' then
      some (.field (position + 1),
        { d with work := if name.isEmpty then none else some (String.ofList name) })
    else some (.work start, d)
  | (.field start, d) =>
    if c = '\x7d' then (d.addField? (slice whole start position)).map fun d => (.closing, d)
    else some (.field start, d)
  | (.closing, d) => if c = ']' then some (.equals, d) else none
  | (.equals, d) => if c = '=' then some (.level (position + 1), d) else none
  | (.level start, d) => some (.level start, d)

/-- The characters of a directive from a position on. -/
def run (whole : List Char) : Nat → List Char → Reading × Directive → Option (Reading × Directive)
  | _, [], state => some state
  | position, c :: rest, state => do run whole (position + 1) rest (← step whole position c state)

/-- A directive. Positions count without the blanks in front, texts are cut with them. -/
def Directive.read? (whole : List Char) : Option Directive := do
  match ← run whole 0 (Text.trim whole) (.start, ⟨5, none, none, []⟩) with
  | (.front start, d) =>
    let front := whole.drop start
    match detail? front with
    | some detail => some { d with detail }
    | none => some { d with part := some (String.ofList front) }
  | (.level start, d) =>
    let word := whole.drop start
    if word.isEmpty then some d
    else return { d with detail := ← detail? word }
  | (.equals, d) => some d
  | _ => none

end RangeLookup.Log
