import RangeLookup.Toml.Moment

/-!
# Tables that stand for a moment

A table whose first key is `momentKey` holds a text there, and stands for the moment that the text
gives; what follows the key does not count. A text that gives no moment spoils the document.
-/

namespace RangeLookup.Toml

/-- The key that says that a table stands for a moment. -/
def momentKey : String := "$__toml_private_datetime"

/-- The moment that the value at `momentKey` gives. -/
def taggedMoment? : Value → Option Value
  | .text s => (moment? .loose s.toList).map .moment
  | _ => none

mutual

/-- The value with a moment for each table in it that stands for one. -/
def resolve? : Value → Option Value
  | .array items => (resolveItems? items).map .array
  | .table entries => resolveTable? entries
  | v => some v

def resolveItems? : List Value → Option (List Value)
  | [] => some []
  | v :: rest => do return (← resolve? v) :: (← resolveItems? rest)

/-- What a table with the given entries stands for. -/
def resolveTable? : List (String × Value) → Option Value
  | [] => some (.table [])
  | (key, v) :: rest =>
    if key = momentKey then taggedMoment? v
    else do return .table ((key, ← resolve? v) :: (← resolveEntries? rest))

def resolveEntries? : List (String × Value) → Option (List (String × Value))
  | [] => some []
  | (key, v) :: rest => do return (key, ← resolve? v) :: (← resolveEntries? rest)

end

end RangeLookup.Toml
