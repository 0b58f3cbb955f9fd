import RangeLookup.Toml.Value

/-!
# TOML tables while they are read

A table comes from a header, from the path in front of another header, or from the dots of a key,
and may be extended only in the way it came about: a header does not name one table twice, and dots
do not reach into a table that has a header.
-/

namespace RangeLookup.Toml

/-- How a table came about. -/
inductive Origin where
  /-- It has a header of its own. -/
  | headed
  /-- It is on the path of a header. -/
  | implied
  /-- It is on the path of a key. -/
  | dotted
  deriving DecidableEq

/-- What a key stands for while more may come. -/
inductive Node where
  | value (v : Value)
  | table (origin : Origin) (entries : List (String × Node))
  /-- The elements of an array of tables, last one first. -/
  | elements (last : List (String × Node)) (earlier : List (List (String × Node)))

/-- Keys and what they hold. The order is that of their first mention, but a header of its own takes
a table behind the others. -/
abbrev Entries := List (String × Node)

/-- A table that may still be extended. -/
structure Table where
  origin : Origin
  entries : Entries

namespace Table

def empty : Table := ⟨.headed, []⟩

def find? (t : Table) (key : String) : Option Node :=
  (t.entries.find? fun e => e.1 = key).map (·.2)

/-- The table with a new node at a key, in the place of an earlier one. -/
def put (t : Table) (key : String) (n : Node) : Table :=
  if (t.find? key).isSome then
    { t with entries := t.entries.map fun e => if e.1 = key then (key, n) else e }
  else { t with entries := t.entries ++ [(key, n)] }

/-- The table with a new node at a key, behind all others. -/
def putLast (t : Table) (key : String) (n : Node) : Table :=
  { t with entries := (t.entries.filter fun e => e.1 != key) ++ [(key, n)] }

/-- A change to the table at the end of a path; tables that are missing on the way come about with
the given origin. -/
def update (onTheWay : Origin) (change : Table → Option Table) : List String → Table → Option Table
  | [], t => change t
  | key :: path, t =>
    match t.find? key with
    | none => do
      let inner ← update onTheWay change path ⟨onTheWay, []⟩
      return t.put key (.table inner.origin inner.entries)
    | some (.value _) => none
    | some (.elements last earlier) => do
      let inner ← update onTheWay change path ⟨.headed, last⟩
      return t.put key (.elements inner.entries earlier)
    | some (.table origin entries) =>
      if onTheWay = .dotted ∧ origin = .headed then none
      else do
        let inner ← update onTheWay change path ⟨origin, entries⟩
        return t.put key (.table inner.origin inner.entries)

/-- A path without its last key, and that key. -/
def splitLast? (path : List String) : Option (List String × String) :=
  path.getLast?.map fun key => (path.dropLast, key)

/-- The table with a value at the end of a key; only tables that dots made are reached by dots. -/
def assign (t : Table) (path : List String) (v : Value) : Option Table := do
  let (front, key) ← splitLast? path
  let insert (inner : Table) : Option Table :=
    if (inner.origin = .dotted) ↔ front.isEmpty then none
    else if (inner.find? key).isSome then none
    else some (inner.put key (.value v))
  t.update .dotted insert front

/-- The table with a headed table at the end of a path, its last key behind all others there. -/
def addHeader (t : Table) (path : List String) : Option Table := do
  let (front, key) ← splitLast? path
  let insert (parent : Table) : Option Table :=
    match parent.find? key with
    | none => some (parent.putLast key (.table .headed []))
    | some (.table .implied entries) => some (parent.putLast key (.table .headed entries))
    | some _ => none
  t.update .implied insert front

/-- The table with one more element in the array of tables at the end of a path. -/
def addElement (t : Table) (path : List String) : Option Table := do
  let (front, key) ← splitLast? path
  let insert (parent : Table) : Option Table :=
    match parent.find? key with
    | none => some (parent.put key (.elements [] []))
    | some (.elements last earlier) => some (parent.put key (.elements [] (last :: earlier)))
    | some _ => none
  t.update .implied insert front

mutual

/-- The value of a node to which nothing more will come. -/
def closeNode : Node → Value
  | .value v => v
  | .table _ entries => .table (closeEntries entries)
  | .elements last earlier => .array ((Value.table (closeEntries last) :: closeAll earlier).reverse)

def closeEntries : List (String × Node) → List (String × Value)
  | [] => []
  | (key, n) :: rest => (key, closeNode n) :: closeEntries rest

def closeAll : List (List (String × Node)) → List Value
  | [] => []
  | entries :: rest => .table (closeEntries entries) :: closeAll rest

end

/-- The values of a table to which nothing more will come. -/
def close (t : Table) : List (String × Value) := closeEntries t.entries

end Table

end RangeLookup.Toml
