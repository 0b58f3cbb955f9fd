import RangeLookup.Listing.Symbolic.Plain
import RangeLookup.Proofs.Listing.Operand

/-!
# The characters of the symbolic listing

Each node is taken apart into the pieces that it is written from, with the text that follows it as a
parameter (`toList_leaf_append`, `toList_split_append`), so that proofs about the text go through it
from the front, piece by piece.
-/

namespace RangeLookup

namespace Listing.Symbolic

/-- An entry of a table as it is written. -/
def entryText (e : Entry) : List Char :=
  ' ' :: '(' :: ((decimal e.offset.toNat).toList ++ ' ' :: ((decimal e.span.toNat).toList ++ [')']))

theorem entryText_append (e : Entry) (rest : List Char) : entryText e ++ rest = ' ' :: '(' ::
    ((decimal e.offset.toNat).toList ++ ' ' :: ((decimal e.span.toNat).toList ++ ')' :: rest)) := by
  simp [entryText]

theorem toList_table (s : RangeStore) (t : FlatTable) : (table s t).toList =
    "(table-".toList ++ ((decimal t.format.base.bits).toList ++ '-' ::
      ((decimal t.format.span.bits).toList ++ ' ' :: '#' :: 'x' ::
        ((hexadecimal (t.base s).toNat).toList ++ (t.entries s).flatMap entryText))) := by
  unfold table
  simp [Function.comp_def, List.flatMap_def]
  rfl

theorem toList_leaf_append (s : RangeStore) (depth : Nat) (t : FlatTable) (rest : List Char) :
    (plain s depth (.leaf t)).toList ++ rest = List.replicate depth ' ' ++
      ("(table-".toList ++ ((decimal t.format.base.bits).toList ++ '-' ::
        ((decimal t.format.span.bits).toList ++ ' ' :: '#' :: 'x' ::
          ((hexadecimal (t.base s).toNat).toList ++
            ((t.entries s).flatMap entryText ++ ')' :: rest))))) := by
  rw [plain, String.toList_append, String.toList_append, toList_table]
  simp

theorem toList_split_append (s : RangeStore) (depth pivot : Nat) (left right : Decision)
    (rest : List Char) :
    (plain s depth (.split pivot left right)).toList ++ rest = List.replicate depth ' ' ++
      ("(split #x".toList ++ ((hexadecimal (s.get pivot).low.toNat).toList ++ ' ' :: ';' :: ' ' ::
        ((decimal left.first).toList ++ ' ' :: ((decimal pivot).toList ++ ' ' ::
          ((decimal right.last).toList ++ '\n' ::
            ((plain s (depth + 1) left).toList ++ '\n' ::
              ((plain s (depth + 1) right).toList ++ ')' :: rest))))))) := by
  rw [plain]
  unfold splitHead
  simp

theorem toList_symbolic (s : RangeStore) (tree : Decision) :
    (symbolic s tree).toList = (plain s 0 tree).toList ++ ['\n'] := by
  rw [symbolic, node_eq_plain, closers]
  simp

end Listing.Symbolic

end RangeLookup
