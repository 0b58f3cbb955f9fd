import RangeLookup.Listing.Symbolic

/-!
# The symbolic listing, node by node

The symbolic listing with every parenthesis written by the node that it belongs to. `node_eq_plain`
says that the closing parentheses gathered at the end of a line are those of the nodes that end
there.
-/

namespace RangeLookup

namespace Listing.Symbolic

/-- The text of a node at its depth, without a line feed at its end. -/
def plain (s : RangeStore) (depth : Nat) : Decision → String
  | .leaf t => String.ofList (List.replicate depth ' ') ++ table s t ++ ")"
  | .split pivot left right =>
    String.ofList (List.replicate depth ' ') ++ splitHead s pivot left.first right.last ++ "\n" ++
      plain s (depth + 1) left ++ "\n" ++ plain s (depth + 1) right ++ ")"

theorem closers_succ (n : Nat) : closers (1 + n) = ")" ++ closers n := by
  rw [Nat.add_comm, closers, List.replicate_succ, String.ofList_cons]
  rfl

theorem node_eq_plain (s : RangeStore) (depth ending : Nat) (tree : Decision) :
    node s depth ending tree = plain s depth tree ++ closers ending ++ "\n" := by
  induction tree generalizing depth ending with
  | leaf t => simp only [node, plain, spaces, closers_succ, String.append_assoc]
  | split pivot left right ihl ihr =>
    rw [node, plain, ihl, ihr, closers_succ]
    simp only [String.append_assoc, spaces, closers, List.replicate_zero, String.ofList_nil,
      String.empty_append]

end Listing.Symbolic

end RangeLookup
