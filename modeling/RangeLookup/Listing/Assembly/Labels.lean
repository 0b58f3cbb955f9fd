import RangeLookup.Listing.Assembly.Reading

/-!
# The labels of an assembly listing

The labels of an assembly listing, the lines that refer to them, and the two sections that they
stand in. A branch refers to the label of a block, a loaded address to the label of a table. Both
kinds of label are for a run of ranges, told by the indices of its first and its last range.
-/

namespace RangeLookup

/-- The run of ranges that the table holds. -/
def FlatTable.run (t : FlatTable) : Nat × Nat := (t.first, t.last)

namespace Listing

namespace Line

def blockLabel? : Line → Option (Nat × Nat)
  | blockLabel first last => some (first, last)
  | _ => none

def branchTarget? : Line → Option (Nat × Nat)
  | branch first last => some (first, last)
  | _ => none

def tableLabel? : Line → Option (Nat × Nat)
  | tableLabel first last => some (first, last)
  | _ => none

def loadedTable? : Line → Option (String × Nat × Nat)
  | loadTable name first last => some (name, first, last)
  | _ => none

end Line

/-- The labels of blocks in order. -/
def blockLabels (lines : List Line) : List (Nat × Nat) := lines.filterMap Line.blockLabel?

/-- The labels that branches lead to, in order. -/
def branchTargets (lines : List Line) : List (Nat × Nat) := lines.filterMap Line.branchTarget?

/-- The labels of tables in order. -/
def tableLabels (lines : List Line) : List (Nat × Nat) := lines.filterMap Line.tableLabel?

/-- The tables whose addresses are loaded, in order, each with the name of its listing. -/
def loadedTables (lines : List Line) : List (String × Nat × Nat) :=
  lines.filterMap Line.loadedTable?

/-- The table that the block of a leaf searches: the name of the listing and the run of ranges. -/
def Search.table (b : Search) : String × Nat × Nat := (b.name, b.first, b.last)

/-- What stands between the comments at the ends of a section. -/
def sectionLines (lines : List Line) (name : String) (part : Section) : List Line :=
  ((lines.dropWhile (· != .opening name part)).drop 1).takeWhile (· != .closing name part)

end Listing

end RangeLookup
