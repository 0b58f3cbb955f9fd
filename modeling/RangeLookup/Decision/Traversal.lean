import RangeLookup.Decision

/-!
# The walk over the leaves

The leaves of a tree come out call by call. A call looks for the next leaf in turns: each takes the
subtree off the top of a stack, and a split puts its own two back. `inOrder` is the sequence of
leaves that recursion over the tree gives, without a stack.
-/

namespace RangeLookup

namespace Decision

/-- The leaves of the tree, those below the left subtree of a split before those below the right
one. -/
def inOrder : Decision → List FlatTable
  | leaf table => [table]
  | split _ left right => left.inOrder ++ right.inOrder

/-- One turn: the subtree on top is taken off the stack. A leaf comes out; a split gives way to its
subtrees, the left one on top. -/
def turn : List Decision → Option FlatTable × List Decision
  | [] => (none, [])
  | leaf table :: rest => (some table, rest)
  | split _ left right :: rest => (none, left :: right :: rest)

/-- The leaves that come out in so many turns, and the stack after them. -/
def turns : Nat → List Decision → List FlatTable × List Decision
  | 0, stack => ([], stack)
  | n + 1, stack =>
    let (leaves, rest) := turns n (turn stack).2
    ((turn stack).1.toList ++ leaves, rest)

/-- One call: the next leaf, if there is one, and the stack that the next call starts from. -/
def call (stack : List Decision) : Option FlatTable × List Decision :=
  match nextLeaf? stack with
  | some (table, rest) => (some table, rest)
  | none => (none, [])

/-- The stack after so many calls. -/
def afterCalls : Nat → List Decision → List Decision
  | 0, stack => stack
  | n + 1, stack => (call (afterCalls n stack)).2

/-- The answer to the call that follows so many others. -/
def answer (n : Nat) (stack : List Decision) : Option FlatTable := (call (afterCalls n stack)).1

end Decision

end RangeLookup
