import RangeLookup.CostTable.Tree
import RangeLookup.Document
import RangeLookup.Listing.Assembly
import RangeLookup.Listing.Symbolic

/-!
# Compilation

From a document of ranges to a listing of its lookup tables, in four steps: the ranges, their cost
table, the cheapest tree, and the listing of the tree. An error in a step is the result.
-/

namespace RangeLookup

/-- The kinds of listing. -/
inductive ListingKind where
  | symbolic
  | assembly (name : String)
  deriving DecidableEq, Repr

/-- The listing of a tree for the ranges of a store. -/
def ListingKind.render (kind : ListingKind) (s : RangeStore) (tree : Decision) :
    Except Error String :=
  match kind with
  | symbolic => .ok (Listing.symbolic s tree)
  | assembly name => Listing.assembly name s tree

/-- The results of the four steps; a step after a failed one fails with the same error. -/
structure Compilation where
  ranges : Except Error RangeStore
  table : Except Error CostTable
  tree : Except Error Decision
  listing : Except Error String

/-- The steps for a document of at most as many ranges as the ceiling allows. -/
def Compilation.run (document : Bytes) (catalog : Catalog) (ceiling : Nat) (kind : ListingKind) :
    Compilation :=
  let ranges := Document.read document ceiling
  let table := ranges.bind fun s => CostTable.optimize s catalog
  let tree := table.bind CostTable.tree
  ⟨ranges, table, tree, ranges.bind fun s => tree.bind (kind.render s)⟩

/-- The listing of a document of at most as many ranges as the ceiling allows. -/
def compile (document : Bytes) (catalog : Catalog) (ceiling : Nat) (kind : ListingKind) :
    Except Error String :=
  (Compilation.run document catalog ceiling kind).listing

theorem compile_eq (document : Bytes) (catalog : Catalog) (ceiling : Nat) (kind : ListingKind) :
    compile document catalog ceiling kind =
      (Document.read document ceiling).bind fun s =>
        (CostTable.optimize s catalog).bind fun table => table.tree.bind (kind.render s) := by
  simp only [compile, Compilation.run, Except.bind]
  cases Document.read document ceiling with
  | error e => rfl
  | ok s =>
    simp only
    cases CostTable.optimize s catalog with
    | error e => rfl
    | ok table => rfl

end RangeLookup
