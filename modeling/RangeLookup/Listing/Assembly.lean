import RangeLookup.Decision
import RangeLookup.Packing

/-!
# The assembly listing

The assembly listing of a decision tree: the packed tables of its leaves, and the code that finds
the table for a value.

The code is a chain of blocks, one a node, each behind the label of the ranges below it. A split
compares the value in `eax` with the start of its pivot range, branches to the right block from
there on, and runs on into the left block otherwise. A leaf makes the value relative to its table,
loads table and count, and leaves for the search routine of its format.
-/

namespace RangeLookup

namespace Listing

/-- The two sections of an assembly listing. -/
inductive Section where
  | data
  | code
  deriving DecidableEq, Repr

def Section.text : Section → String
  | data => "data"
  | code => "code"

/-- The lines of an assembly listing. -/
inductive Line where
  /-- The comment at the start of a section. -/
  | opening (name : String) (part : Section)
  /-- The comment at the end of a section. -/
  | closing (name : String) (part : Section)
  /-- The label of a section. -/
  | sectionLabel (name : String) (part : Section)
  /-- What follows starts at a multiple of four. -/
  | align
  /-- The label of the table of a run of ranges. -/
  | tableLabel (first last : Nat)
  /-- Packed data. -/
  | data (directive : Directive)
  /-- The label of the code for a run of ranges. -/
  | blockLabel (first last : Nat)
  /-- The value is compared with a bound. -/
  | compare (bound : UInt32)
  /-- To the code for a run of ranges, if the value was not below the bound. -/
  | branch (first last : Nat)
  /-- The value becomes relative to a base. -/
  | rebase (base : UInt32)
  /-- The address of the table of a run of ranges. -/
  | loadTable (name : String) (first last : Nat)
  /-- How many entries the table has. -/
  | loadCount (count : Nat)
  /-- To the routine that searches tables of a format. -/
  | search (format : Format)
  deriving DecidableEq

/-- A label: its kind and the run of ranges it is for. -/
def runLabel (kind : String) (first last : Nat) : String :=
  "." ++ kind ++ "_" ++ decimal first ++ "_" ++ decimal last

/-- A line as it is written. -/
def Line.text : Line → String
  | opening name part => ";; " ++ name ++ " " ++ part.text ++ " start"
  | closing name part => ";; " ++ name ++ " " ++ part.text ++ " end"
  | sectionLabel name part => name ++ "_" ++ part.text ++ ":"
  | align => "    align 4"
  | tableLabel first last => " " ++ runLabel "T" first last ++ ":"
  | data directive => "    " ++ directive.text
  | blockLabel first last => "  " ++ runLabel "L" first last ++ ":"
  | compare bound => "    cmp eax, " ++ markedHex bound.toNat
  | branch first last => "    jae " ++ runLabel "L" first last
  | rebase base => "    sub eax, " ++ markedHex base.toNat
  | loadTable name first last => "    mov ebx, " ++ name ++ "_data" ++ runLabel "T" first last
  | loadCount count => "    mov ecx, " ++ decimal count
  | search format =>
    "    jmp unicode_bsearch_" ++ decimal format.base.bits ++ "_" ++ decimal format.span.bits

/-- The text of lines, each ended by a line feed. -/
def textOf (lines : List Line) : String := String.join (lines.map fun line => line.text ++ "\n")

/-- Lines as far as they could be written, and what stopped the writing, if anything did. -/
structure Draft where
  lines : List Line
  stopped : Option Error

namespace Draft

/-- A draft that nothing stopped. -/
def done (lines : List Line) : Draft := ⟨lines, none⟩

/-- What comes after a draft; nothing does where it stopped. -/
def append (d e : Draft) : Draft :=
  match d.stopped with
  | none => ⟨d.lines ++ e.lines, e.stopped⟩
  | some _ => d

instance : Append Draft := ⟨append⟩

/-- Drafts one after the other. -/
def concat (drafts : List Draft) : Draft := drafts.foldr append (done [])

/-- The lines of a draft that nothing stopped. -/
def finish (d : Draft) : Except Error (List Line) :=
  match d.stopped with
  | none => .ok d.lines
  | some e => .error e

end Draft

namespace Assembly

/-- One entry as a line of data. -/
def entry (l : Layout) (e : Entry) : Draft :=
  match l.directive e with
  | .ok directive => .done [.data directive]
  | .error reason => ⟨[], some reason⟩

/-- The packed table of a leaf behind its label. -/
def table (s : RangeStore) (t : FlatTable) : Draft :=
  match Layout.ofFormat t.format with
  | .error reason => ⟨[], some reason⟩
  | .ok l =>
    .done [.align, .tableLabel t.first t.last] ++ .concat ((t.entries s).map (entry l))

/-- The section that holds the tables, in the order of the leaves. -/
def data (name : String) (s : RangeStore) (tree : Decision) : Draft :=
  .done [.opening name .data, .sectionLabel name .data] ++
    (.concat (tree.leaves.map (table s)) ++ .done [.closing name .data])

/-- The code of a leaf behind its label. -/
def searchBlock (name : String) (s : RangeStore) (t : FlatTable) : List Line :=
  [.rebase (t.base s), .loadTable name t.first t.last, .loadCount t.count, .search t.format]

/-- The code of a node behind its label. -/
def block (name : String) (s : RangeStore) : Decision → List Line
  | .leaf t => .blockLabel t.first t.last :: searchBlock name s t
  | .split pivot left right =>
    .blockLabel left.first right.last :: .compare (s.get pivot).low ::
      .branch right.first right.last :: (block name s left ++ block name s right)

/-- The section that holds the code. -/
def code (name : String) (s : RangeStore) (tree : Decision) : List Line :=
  [.opening name .code, .sectionLabel name .code] ++ block name s tree ++ [.closing name .code]

/-- Both sections, the data first. -/
def lines (name : String) (s : RangeStore) (tree : Decision) : Except Error (List Line) := do
  return (← (data name s tree).finish) ++ code name s tree

end Assembly

/-- The assembly listing of a tree for the ranges of a store, its labels derived from a name. -/
def assembly (name : String) (s : RangeStore) (tree : Decision) : Except Error String :=
  (Assembly.lines name s tree).map textOf

end Listing

end RangeLookup
