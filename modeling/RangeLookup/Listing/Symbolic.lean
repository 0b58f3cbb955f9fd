import RangeLookup.Decision

/-!
# The symbolic listing

The listing of a decision tree in nested parentheses, one node a line, each level indented by one
space.

    (split #x41 ; 0 0 1
     (table-16-16 #x41 (0 25))
     (table-16-16 #x61 (0 25)))

A split writes no parenthesis of its own at its end. The right-most table below it closes it, and at
the same place every other split that ends there.
-/

namespace RangeLookup

namespace Listing.Symbolic

/-- A table without its closing parenthesis: widths, base, and the entries in decimal. -/
def table (s : RangeStore) (t : FlatTable) : String :=
  "(table-" ++ decimal t.format.base.bits ++ "-" ++ decimal t.format.span.bits ++
    " #x" ++ hexadecimal (t.base s).toNat ++
    String.join ((t.entries s).map fun e =>
      " (" ++ decimal e.offset.toNat ++ " " ++ decimal e.span.toNat ++ ")")

/-- The head of a split: the value that is compared with, the first index below, the pivot, and the
last index below. -/
def splitHead (s : RangeStore) (pivot first last : Nat) : String :=
  "(split #x" ++ hexadecimal (s.get pivot).low.toNat ++ " ; " ++ decimal first ++ " " ++
    decimal pivot ++ " " ++ decimal last

def spaces (n : Nat) : String := String.ofList (List.replicate n ' ')

def closers (n : Nat) : String := String.ofList (List.replicate n ')')

/-- The lines of a node at its depth, which close as many enclosing splits as end with it. -/
def node (s : RangeStore) (depth ending : Nat) : Decision → String
  | .leaf t => spaces depth ++ table s t ++ closers (1 + ending) ++ "\n"
  | .split pivot left right =>
    spaces depth ++ splitHead s pivot left.first right.last ++ "\n" ++
      node s (depth + 1) 0 left ++ node s (depth + 1) (1 + ending) right

end Listing.Symbolic

/-- The symbolic listing of a tree for the ranges of a store. -/
def Listing.symbolic (s : RangeStore) (tree : Decision) : String := Symbolic.node s 0 0 tree

end RangeLookup
