import RangeLookup.Checked.CostTable
import RangeLookup.Checked.Document
import RangeLookup.Compile

/-!
# Listings with checked operations

Compilation from a document to a listing ends here. Indices of ranges come out of the tree, where
nothing bounds them; the halves of an entry are put together in words of which only the digits of
the packed entry are kept; and an indentation is a width of sixteen bits.
-/

namespace RangeLookup

namespace Checked

open Listing

/-- The entries of the ranges from `first` to `last`, relative to the first of them. -/
def entries (ranges : Array Interval) (first last : Nat) : Checked (List Entry) := do
  let base := (← element ranges first).low
  (← slice ranges first last).mapM fun r => return ⟨← subWord r.low base, ← span r⟩

section Symbolic

/-- As many spaces, up to a width of sixteen bits. -/
def spaces (n : Nat) : Checked String :=
  if n < 65536 then pure (Symbolic.spaces n) else fault .width

/-- A table without its closing parenthesis. -/
def symbolicTable (ranges : Array Interval) (t : FlatTable) : Checked String := do
  let base := (← element ranges t.first).low
  let entries ← entries ranges t.first t.last
  return "(table-" ++ decimal t.format.base.bits ++ "-" ++ decimal t.format.span.bits ++
    " #x" ++ hexadecimal base.toNat ++
    String.join (entries.map fun e =>
      " (" ++ decimal e.offset.toNat ++ " " ++ decimal e.span.toNat ++ ")")

/-- The lines of a node at its depth, which close as many enclosing splits as end with it. -/
def node (ranges : Array Interval) (depth ending : Nat) : Decision → Checked String
  | .leaf t => do
    return (← spaces depth) ++ (← symbolicTable ranges t) ++
      Symbolic.closers (← addIndex 1 ending) ++ "\n"
  | .split pivot left right => do
    let indent ← spaces depth
    let bound := (← element ranges pivot).low
    let head := "(split #x" ++ hexadecimal bound.toNat ++ " ; " ++ decimal left.first ++ " " ++
      decimal pivot ++ " " ++ decimal right.last
    let below ← node ranges (← addIndex depth 1) 0 left
    let above ← node ranges (← addIndex depth 1) (← addIndex 1 ending) right
    return indent ++ head ++ "\n" ++ below ++ above

/-- The symbolic listing of a tree. -/
def symbolic (ranges : Array Interval) (tree : Decision) : Checked String := node ranges 0 0 tree

end Symbolic

section Assembly

/-- Both halves of an entry fit into the fields of a format. -/
def check (e : Entry) (f : Format) : Checked Unit := do
  if !(← holds f.base e.offset) then fail (.valueOutOfRange .offset e.offset f.base)
  else if !(← holds f.span e.span) then fail (.valueOutOfRange .span e.span f.span)
  else return ()

/-- The entry as a line of data, refused if a half does not fit. -/
def directive (l : Layout) (e : Entry) : Checked Directive := do
  check e l.format
  match l with
  | .uniform unit => return ⟨unit, 1, [e.offset.toNat, e.span.toNat]⟩
  | .twelve =>
    let lowOffset ← byteOf (e.offset &&& 0xFF)
    let lowSpan ← byteOf (e.span &&& 0xFF)
    let high ← byteOf ((e.offset >>> 8) ||| (← shiftWord (e.span >>> 8) 4))
    return ⟨.byte, 2, [lowOffset.toNat, lowSpan.toNat, high.toNat]⟩
  | .tenSix =>
    let word ← halfOf (e.offset ||| (← shiftWord e.span 10))
    return ⟨.word, 4, [word.toNat]⟩

/-- The packed table of a leaf behind its label. -/
def table (ranges : Array Interval) (t : FlatTable) : Checked (List Line) := do
  let l ← plain (Layout.ofFormat t.format)
  let directives ← (← entries ranges t.first t.last).mapM (directive l)
  return .align :: .tableLabel t.first t.last :: directives.map .data

/-- The code of a node behind its label. -/
def block (name : String) (ranges : Array Interval) : Decision → Checked (List Line)
  | .leaf t => do
    let base := (← element ranges t.first).low
    let count ← addIndex (← subIndex t.last t.first) 1
    return [.blockLabel t.first t.last, .rebase base, .loadTable name t.first t.last,
      .loadCount count, .search t.format]
  | .split pivot left right => do
    let bound := (← element ranges pivot).low
    let below ← block name ranges left
    let above ← block name ranges right
    return .blockLabel left.first right.last :: .compare bound ::
      .branch right.first right.last :: (below ++ above)

/-- The assembly listing of a tree, its labels derived from a name. -/
def assembly (name : String) (ranges : Array Interval) (tree : Decision) : Checked String := do
  let tables ← tree.leaves.mapM (table ranges)
  let block ← block name ranges tree
  return textOf ([.opening name .data, .sectionLabel name .data] ++
    (tables.flatten ++ [.closing name .data]) ++
      ([.opening name .code, .sectionLabel name .code] ++ block ++ [.closing name .code]))

end Assembly

/-- The listing of a tree. -/
def render (kind : ListingKind) (ranges : Array Interval) (tree : Decision) : Checked String :=
  match kind with
  | .symbolic => symbolic ranges tree
  | .assembly name => assembly name ranges tree

/-- The listing of a document of at most as many ranges as the ceiling allows. -/
def compile (document : Bytes) (catalog : Catalog) (ceiling : Nat) (kind : ListingKind) :
    Checked String := do
  let ranges ← read document ceiling
  let table ← optimize ranges catalog.formats
  let tree ← table.tree
  render kind ranges tree

end Checked

end RangeLookup
