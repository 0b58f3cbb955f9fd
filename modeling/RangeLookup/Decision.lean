import RangeLookup.FlatTable

/-!
# Decision trees over flat tables

A split compares with the start of its pivot range and takes the right subtree from there on, the
left one below it; a leaf is the table to search.

The leaves come out of a walk that keeps the subtrees still to be visited, next one first. It visits
every leaf once and in order, whatever the tree holds: `leaves_leaf` and `leaves_split`.
-/

namespace RangeLookup

/-- How a value is looked up: in one table, or on one side of a comparison. -/
inductive Decision where
  | leaf (table : FlatTable)
  | split (pivot : Nat) (left right : Decision)
  deriving DecidableEq

namespace Decision

/-- The index of the first range below the node. -/
def first : Decision → Nat
  | leaf table => table.first
  | split _ left _ => left.first

/-- The index of the last range below the node. -/
def last : Decision → Nat
  | leaf table => table.last
  | split _ _ right => right.last

/-- The cost of the tree for the ranges of a store. -/
def cost (s : RangeStore) : Decision → Cost
  | leaf table => table.cost s
  | split _ left right => Cost.split (left.cost s) (right.cost s)

/-- The nodes of the tree. -/
def nodes : Decision → Nat
  | leaf _ => 1
  | split _ left right => 1 + left.nodes + right.nodes

/-- The nodes of the subtrees that a walk has still to visit. -/
def pendingNodes (pending : List Decision) : Nat := pending.foldr (fun tree n => tree.nodes + n) 0

@[simp] theorem pendingNodes_nil : pendingNodes [] = 0 := rfl

@[simp] theorem pendingNodes_cons (tree : Decision) (rest : List Decision) :
    pendingNodes (tree :: rest) = tree.nodes + pendingNodes rest := rfl

theorem nodes_pos (tree : Decision) : 0 < tree.nodes := by
  cases tree with
  | leaf table => exact Nat.one_pos
  | split pivot left right =>
    rw [nodes]
    omega

/-- A walk has nothing left to visit only when no subtree is pending. -/
theorem pendingNodes_eq_zero_iff {pending : List Decision} :
    pendingNodes pending = 0 ↔ pending = [] := by
  cases pending with
  | nil => simp
  | cons tree rest =>
    have := tree.nodes_pos
    simp only [pendingNodes_cons, reduceCtorEq, iff_false]
    omega

/-- The next leaf of a walk and what is left to visit after it: a split gives way to its subtrees,
left one first. -/
def nextLeaf? (pending : List Decision) : Option (FlatTable × List Decision) :=
  match pending with
  | [] => none
  | leaf table :: rest => some (table, rest)
  | split _ left right :: rest => nextLeaf? (left :: right :: rest)
termination_by pendingNodes pending
decreasing_by simp [pendingNodes, nodes]; omega

theorem pendingNodes_nextLeaf? {pending rest : List Decision} {table : FlatTable}
    (h : nextLeaf? pending = some (table, rest)) : pendingNodes rest < pendingNodes pending := by
  fun_induction nextLeaf? pending with
  | case1 => cases h
  | case2 t rest => cases h; simp [pendingNodes, nodes]
  | case3 p l r rest ih => have := ih h; simp [pendingNodes, nodes] at this ⊢; omega

/-- The leaves that a walk has still to visit. -/
def walk (pending : List Decision) : List FlatTable :=
  match _ : nextLeaf? pending with
  | none => []
  | some (table, rest) => table :: walk rest
termination_by pendingNodes pending
decreasing_by exact pendingNodes_nextLeaf? ‹_›

/-- The leaves from left to right. -/
def leaves (tree : Decision) : List FlatTable := walk [tree]

theorem walk_nil : walk [] = [] := by
  rw [walk]
  split
  · rfl
  · next h => simp [nextLeaf?] at h

theorem walk_leaf (table : FlatTable) (rest : List Decision) :
    walk (leaf table :: rest) = table :: walk rest := by
  rw [walk]
  split
  · next h => simp [nextLeaf?] at h
  · next h => simp only [nextLeaf?, Option.some.injEq, Prod.mk.injEq] at h; rw [h.1, h.2]

theorem walk_split (pivot : Nat) (left right : Decision) (rest : List Decision) :
    walk (split pivot left right :: rest) = walk (left :: right :: rest) := by
  have step : nextLeaf? (split pivot left right :: rest) = nextLeaf? (left :: right :: rest) := by
    rw [nextLeaf?]
  rw [walk, walk]
  split <;> split <;> simp_all

theorem walk_cons (tree : Decision) (rest : List Decision) :
    walk (tree :: rest) = tree.leaves ++ walk rest := by
  unfold leaves
  induction tree generalizing rest with
  | leaf table => simp [walk_leaf, walk_nil]
  | split pivot left right ihl ihr =>
    rw [walk_split, ihl, ihr, walk_split, ihl [right], List.append_assoc]

@[simp] theorem leaves_leaf (table : FlatTable) : (leaf table).leaves = [table] := by
  rw [leaves, walk_leaf, walk_nil]

@[simp] theorem leaves_split (pivot : Nat) (left right : Decision) :
    (split pivot left right).leaves = left.leaves ++ right.leaves := by
  rw [leaves, walk_split, walk_cons, ← leaves]

end Decision

end RangeLookup
