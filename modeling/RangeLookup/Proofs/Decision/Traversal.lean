import Mathlib
import RangeLookup.Decision.Traversal
import RangeLookup.Proofs.Lookup

/-!
# The walk is the recursive traversal

The walk over the leaves of a tree is the recursive traversal of it, whatever indices the tree
holds. What the stack of a walk stands for is the leaves below its subtrees, from the top down: a
turn takes the first of them out or leaves them as they are (`turn_inOrder`), and in either case
there is one node less to visit (`pendingNodes_turn`), while the stack itself may grow. So a call
ends after as many turns as it visits nodes (`turns_call`), the calls answer with the leaves one
after another and with nothing from then on (`answer_eq`), and all nodes are visited in the end
(`turns_all`).
-/

namespace RangeLookup

/-- A range lies in one table of a cutting if it lies in the run, and else in none. -/
theorem Tiles.countP_holds {tables : List FlatTable} {start stop : Nat}
    (h : Tiles tables start stop) (k : Nat) :
    tables.countP (fun t => t.Holds k) = if start ≤ k ∧ k < stop then 1 else 0 := by
  induction tables generalizing start with
  | nil =>
    obtain rfl : start = stop := h
    rw [List.countP_nil, if_neg (by omega)]
  | cons t rest ih =>
    obtain ⟨rfl, hle, hrest⟩ := h
    have upper := hrest.le
    have holds : decide (t.Holds k) = true ↔ t.first ≤ k ∧ k ≤ t.last := decide_eq_true_iff
    rw [List.countP_cons, ih hrest]
    simp only [holds]
    split <;> split <;> split <;> omega

namespace Decision

variable {stack rest : List Decision} {table : FlatTable}

theorem leaves_eq_inOrder (tree : Decision) : tree.leaves = tree.inOrder := by
  induction tree with
  | leaf table => exact leaves_leaf table
  | split pivot left right ihl ihr => rw [leaves_split, ihl, ihr, inOrder]

section Turns

/-- What comes out of a turn, and then what the stack stands for, is what the stack stood for. -/
theorem turn_inOrder (stack : List Decision) :
    (turn stack).1.toList ++ (turn stack).2.flatMap inOrder = stack.flatMap inOrder := by
  match stack with
  | [] => rfl
  | leaf table :: rest => simp [turn, inOrder]
  | split pivot left right :: rest => simp [turn, inOrder]

/-- A turn visits a node. -/
theorem pendingNodes_turn (stack : List Decision) :
    pendingNodes (turn stack).2 = pendingNodes stack - 1 := by
  match stack with
  | [] => rfl
  | leaf table :: rest => simp [turn, nodes]
  | split pivot left right :: rest =>
    simp only [turn, pendingNodes_cons, nodes]
    omega

theorem turns_inOrder (n : Nat) (stack : List Decision) :
    (turns n stack).1 ++ (turns n stack).2.flatMap inOrder = stack.flatMap inOrder := by
  induction n generalizing stack with
  | zero => rfl
  | succ n ih => rw [turns, List.append_assoc, ih, turn_inOrder]

theorem pendingNodes_turns (n : Nat) (stack : List Decision) :
    pendingNodes (turns n stack).2 = pendingNodes stack - n := by
  induction n generalizing stack with
  | zero => rfl
  | succ n ih =>
    rw [turns, ih, pendingNodes_turn]
    omega

/-- After a turn for each node nothing is left on the stack, and all leaves have come out. -/
theorem turns_all (stack : List Decision) :
    turns (pendingNodes stack) stack = (stack.flatMap inOrder, []) := by
  have visited := pendingNodes_turns (pendingNodes stack) stack
  have leaves := turns_inOrder (pendingNodes stack) stack
  rw [Nat.sub_self, pendingNodes_eq_zero_iff] at visited
  rw [visited, List.flatMap_nil, List.append_nil] at leaves
  exact Prod.ext leaves visited

end Turns

section Calls

theorem nextLeaf?_eq_none_iff : nextLeaf? stack = none ↔ stack = [] := by
  fun_induction nextLeaf? stack with
  | case1 => simp
  | case2 table rest => simp
  | case3 pivot left right rest ih => simp [ih]

/-- A call takes as many turns as it visits nodes: then the leaf that it answers with, and no other,
has come out. -/
theorem turns_nextLeaf? (h : nextLeaf? stack = some (table, rest)) :
    ∃ n, turns n stack = ([table], rest) ∧ n + pendingNodes rest = pendingNodes stack := by
  fun_induction nextLeaf? stack with
  | case1 => cases h
  | case2 table rest =>
    cases h
    exact ⟨1, rfl, rfl⟩
  | case3 pivot left right rest ih =>
    obtain ⟨n, out, visited⟩ := ih h
    refine ⟨n + 1, ?_, ?_⟩
    · rw [turns, turn, out]
      rfl
    · simp only [pendingNodes_cons, nodes] at visited ⊢
      omega

theorem call_of_none (h : nextLeaf? stack = none) : call stack = (none, []) := by
  rw [call, h]

theorem call_of_some (h : nextLeaf? stack = some (table, rest)) :
    call stack = (some table, rest) := by
  rw [call, h]

theorem turns_call (stack : List Decision) :
    ∃ n, turns n stack = ((call stack).1.toList, (call stack).2) ∧
      n + pendingNodes (call stack).2 = pendingNodes stack := by
  cases next : nextLeaf? stack with
  | none =>
    obtain rfl := nextLeaf?_eq_none_iff.1 next
    rw [call_of_none next]
    exact ⟨0, rfl, rfl⟩
  | some found =>
    rw [call_of_some next]
    exact turns_nextLeaf? next

/-- A call answers with the first leaf that the stack stands for and leaves the others. -/
theorem call_inOrder (stack : List Decision) :
    (call stack).1 = (stack.flatMap inOrder).head? ∧
      (call stack).2.flatMap inOrder = (stack.flatMap inOrder).tail := by
  cases next : nextLeaf? stack with
  | none =>
    obtain rfl := nextLeaf?_eq_none_iff.1 next
    rw [call_of_none next]
    exact ⟨rfl, rfl⟩
  | some found =>
    obtain ⟨n, out, -⟩ := turns_nextLeaf? next
    have leaves := turns_inOrder n stack
    rw [out] at leaves
    rw [call_of_some next, ← leaves]
    exact ⟨rfl, rfl⟩

/-- After so many calls the stack stands for the leaves after as many. -/
theorem afterCalls_inOrder (n : Nat) (stack : List Decision) :
    (afterCalls n stack).flatMap inOrder = (stack.flatMap inOrder).drop n := by
  induction n with
  | zero => rfl
  | succ n ih => rw [afterCalls, (call_inOrder _).2, ih, List.tail_drop]

theorem answer_eq (n : Nat) (stack : List Decision) :
    answer n stack = (stack.flatMap inOrder)[n]? := by
  rw [answer, (call_inOrder _).1, afterCalls_inOrder, List.head?_drop]

end Calls

section Bounds

/-- The first leaf begins where the tree does. -/
theorem first_head_inOrder (tree : Decision) :
    tree.inOrder.head?.map FlatTable.first = some tree.first := by
  induction tree with
  | leaf table => rfl
  | split pivot left right ihl _ =>
    obtain ⟨table, found, first⟩ := Option.map_eq_some_iff.1 ihl
    rw [inOrder, List.head?_append, found]
    exact congrArg some first

/-- The last leaf ends where the tree does. -/
theorem last_getLast_inOrder (tree : Decision) :
    tree.inOrder.getLast?.map FlatTable.last = some tree.last := by
  induction tree with
  | leaf table => rfl
  | split pivot left right _ ihr =>
    obtain ⟨table, found, last⟩ := Option.map_eq_some_iff.1 ihr
    rw [inOrder, List.getLast?_append, found]
    exact congrArg some last

end Bounds

/-- The walk over the leaves of a tree, whether or not the indices of the tree agree, answers its
calls with the leaves that recursion gives, in the same order, and with nothing after the last. A
call ends after as many turns as it visits nodes, and all turns together visit each node once. The
first and the last leaf show the bounds of the tree; where it covers a run, the leaves tile the run,
and each of its ranges is in just one of them. -/
theorem calls_answer_inOrder (tree : Decision) :
    tree.leaves = tree.inOrder ∧
    (∀ n, answer n [tree] = tree.inOrder[n]?) ∧
    (∀ n, ∃ m,
      turns m (afterCalls n [tree]) = ((answer n [tree]).toList, afterCalls (n + 1) [tree]) ∧
      m + pendingNodes (afterCalls (n + 1) [tree]) = pendingNodes (afterCalls n [tree])) ∧
    turns tree.nodes [tree] = (tree.inOrder, []) ∧
    tree.inOrder.head?.map FlatTable.first = some tree.first ∧
    tree.inOrder.getLast?.map FlatTable.last = some tree.last ∧
    ∀ first last, tree.Covers first last →
      Tiles tree.inOrder first (last + 1) ∧
      ∀ k, tree.inOrder.countP (fun t => t.Holds k) = if first ≤ k ∧ k ≤ last then 1 else 0 := by
  have whole : [tree].flatMap inOrder = tree.inOrder := List.flatMap_singleton _ _
  refine ⟨tree.leaves_eq_inOrder, ?_, fun n => turns_call _, ?_, tree.first_head_inOrder,
    tree.last_getLast_inOrder, ?_⟩
  · intro n
    rw [answer_eq, whole]
  · rw [← whole]
    exact turns_all [tree]
  · intro first last covers
    have tiles := covers.tiles
    rw [leaves_eq_inOrder] at tiles
    refine ⟨tiles, ?_⟩
    intro k
    rw [tiles.countP_holds]
    simp only [Nat.lt_succ_iff]

/-- A tree with a table of three ranges to the right of two tables of one. -/
def leaning : Decision :=
  .split 1 (.split 0 (.leaf ⟨.words, 0, 0⟩) (.leaf ⟨.words, 1, 1⟩)) (.leaf ⟨.doubleWords, 2, 4⟩)

theorem calls_answer_inOrder_leaning :
    leaning.Covers 0 4 ∧
      (answer 0 [leaning] = some ⟨.words, 0, 0⟩ ∧ answer 1 [leaning] = some ⟨.words, 1, 1⟩ ∧
        answer 2 [leaning] = some ⟨.doubleWords, 2, 4⟩ ∧ ∀ n, answer (n + 3) [leaning] = none) ∧
      turns 5 [leaning] = ([⟨.words, 0, 0⟩, ⟨.words, 1, 1⟩, ⟨.doubleWords, 2, 4⟩], []) ∧
      Tiles leaning.leaves 0 5 ∧ leaning.leaves.countP (fun t => t.Holds 3) = 1 := by
  have covers : leaning.Covers 0 4 := by decide
  obtain ⟨leaves, answers, -, all, -, -, run⟩ := calls_answer_inOrder leaning
  obtain ⟨tiles, once⟩ := run 0 4 covers
  rw [leaves]
  exact ⟨covers, ⟨answers 0, answers 1, answers 2, fun n => answers (n + 3)⟩, all, tiles, once 3⟩

end Decision

end RangeLookup
