/-!
# Values of settings

Each value goes with the place where it was set. A value is placed at a path below the root;
whatever stands in the way on the path gives way to a table or a list. A table that is placed does
not replace what was there but merges into it, key by key.
-/

namespace RangeLookup

/-- Where a value was set. -/
inductive Source where
  | builtIn
  | file (name : String)
  | environment
  deriving DecidableEq, Repr

/-- The value of a setting. -/
inductive Setting where
  | blank
  | boolean (source : Source) (b : Bool)
  | integer (source : Source) (i : Int)
  | float (source : Source) (x : Float)
  | text (source : Source) (s : String)
  | list (source : Source) (items : List Setting)
  | table (source : Source) (entries : List (String × Setting))

namespace Setting

def source : Setting → Source
  | blank => .builtIn
  | boolean s _ => s
  | integer s _ => s
  | float s _ => s
  | text s _ => s
  | list s _ => s
  | table s _ => s

def emptyTable : Setting := table .builtIn []

/-- The keys and values of a table. -/
def entries : Setting → List (String × Setting)
  | table _ entries => entries
  | _ => []

/-- The value at a key of a table. -/
def child? (t : Setting) (key : String) : Option Setting :=
  (t.entries.find? fun e => e.1 = key).map (·.2)

/-- A table with a new value at a key; anything else becomes a table of that value alone. -/
def put (t : Setting) (key : String) (value : Setting) : Setting :=
  match t with
  | table s entries =>
    if entries.any fun e => e.1 = key then
      table s (entries.map fun e => if e.1 = key then (key, value) else e)
    else table s (entries ++ [(key, value)])
  | _ => table .builtIn [(key, value)]

mutual

/-- What stands at a place after a value is set there: a table merges into what was there. -/
def mergedOnto (old : Option Setting) : Setting → Setting
  | table _ entries => mergeEntries (old.getD emptyTable) entries
  | value => value

/-- The entries set one after the other. -/
def mergeEntries (t : Setting) : List (String × Setting) → Setting
  | [] => t
  | (key, value) :: rest => mergeEntries (t.put key (mergedOnto (t.child? key) value)) rest

end

/-- One step of a path below a key. An index below zero counts from the end of a list. -/
inductive Step where
  | child (key : String)
  | item (index : Int)
  deriving DecidableEq, Repr

/-- The items of a list. -/
def items (old : Option Setting) : List Setting :=
  match old with
  | some (list _ items) => items
  | _ => []

/-- The items filled up with blanks so that there is one at the index, and its place among them. -/
def filledTo (index : Int) (items : List Setting) : List Setting × Nat :=
  if 0 ≤ index then
    (items ++ List.replicate (index.toNat + 1 - items.length) blank, index.toNat)
  else
    (List.replicate (index.natAbs - items.length) blank ++ items, items.length - index.natAbs)

/-- The source of a list. -/
def listSource (old : Option Setting) : Source :=
  match old with
  | some (list s _) => s
  | _ => .builtIn

/-- What stands at a place after a value is set at the end of a path from there. -/
def place (value : Setting) : List Step → Option Setting → Setting
  | [], old => mergedOnto old value
  | .child key :: steps, old =>
    let t := old.getD emptyTable
    t.put key (place value steps (t.child? key))
  | .item index :: steps, old =>
    let (items, position) := filledTo index (items old)
    let inner := if steps.isEmpty then value else place value steps items[position]?
    list (listSource old) (items.set position inner)

end Setting

end RangeLookup
