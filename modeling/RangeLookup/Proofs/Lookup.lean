import RangeLookup.Proofs.CostTable.Choice
import RangeLookup.Proofs.RangeStore.Get

/-!
# Where comparisons lead

A split compares with the start of its pivot range and sends that value to the right, while the
range itself is stored on the left. So a value of a range is led to the table that holds it exactly
when the range is the pivot of no split (`Covers.route_of_contains`), and a value of a pivot range
is led to the table that begins with the range after it. Pivots are the last ranges of all tables
but the last one (`Covers.map_last_leaves`), so a lookup misses one range for each boundary between
two tables.
-/

namespace RangeLookup

/-- The range at the index is stored in the table. -/
def FlatTable.Holds (t : FlatTable) (k : Nat) : Prop := t.first ≤ k ∧ k ≤ t.last

instance (t : FlatTable) (k : Nat) : Decidable (t.Holds k) := inferInstanceAs (Decidable (_ ∧ _))

namespace Decision

variable {s : RangeStore} {tree left right : Decision} {first last pivot k p : Nat} {v : UInt32}

/-- The ranges that splits compare with, from left to right. -/
def pivots : Decision → List Nat
  | leaf _ => []
  | split pivot left right => left.pivots ++ pivot :: right.pivots

/-- The comparisons that a value takes to its table. -/
def comparisons (s : RangeStore) (v : UInt32) : Decision → Nat
  | leaf _ => 0
  | split pivot left right =>
    (if (s.get pivot).low ≤ v then right.comparisons s v else left.comparisons s v) + 1

theorem comparisons_le_height (s : RangeStore) (v : UInt32) (tree : Decision) :
    tree.comparisons s v ≤ tree.height := by
  induction tree with
  | leaf table => exact Nat.le_refl _
  | split pivot left right ihl ihr =>
    rw [comparisons, height]
    split <;> omega

/-- A split sends a value of a range before its pivot to the left. -/
theorem route_split_of_lt (hkp : k < pivot) (hp : pivot < s.size) (hv : (s.get k).Contains v) :
    (split pivot left right).route s v = left.route s v := by
  have below := RangeStore.lt_low_of_contains hkp hp hv
  rw [route, if_neg (UInt32.not_le.2 below)]

/-- A split sends a value of its pivot range, or of one after it, to the right. -/
theorem route_split_of_le (hpk : pivot ≤ k) (hk : k < s.size) (hv : (s.get k).Contains v) :
    (split pivot left right).route s v = right.route s v := by
  have above := RangeStore.low_le_of_contains hpk hk hv
  rw [route, if_pos above]

theorem Covers.mem_pivots (h : tree.Covers first last) (hp : p ∈ tree.pivots) :
    first ≤ p ∧ p < last := by
  induction tree generalizing first last with
  | leaf table => cases hp
  | split pivot left right ihl ihr =>
    obtain ⟨hle, hlt, hcl, hcr⟩ := h
    rcases List.mem_append.1 hp with hp | hp
    · have inside := ihl hcl hp
      omega
    · rcases List.mem_cons.1 hp with rfl | hp
      · omega
      · have inside := ihr hcr hp
        omega

/-- The tables of a tree end with its pivots, and the last one with the run. -/
theorem Covers.map_last_leaves (h : tree.Covers first last) :
    tree.leaves.map FlatTable.last = tree.pivots ++ [last] := by
  induction tree generalizing first last with
  | leaf table => simp [pivots, h.2.1]
  | split pivot left right ihl ihr =>
    rw [leaves_split, List.map_append, ihl h.2.2.1, ihr h.2.2.2]
    simp [pivots]

/-- A value below all ranges of a run is led to the first of its tables. -/
theorem Covers.first_route_of_lt (h : tree.Covers first last)
    (hv : ∀ i, first ≤ i → i ≤ last → v < (s.get i).low) : (tree.route s v).first = first := by
  induction tree generalizing first last with
  | leaf table => exact h.1
  | split pivot left right ihl _ =>
    obtain ⟨hle, hlt, hcl, -⟩ := h
    have below := hv pivot hle (by omega)
    rw [route, if_neg (UInt32.not_le.2 below)]
    apply ihl hcl
    intro i hi hp
    exact hv i hi (by omega)

/-- A value of a pivot range is led to the table that begins after the pivot. -/
theorem Covers.first_route_of_mem_pivots (h : tree.Covers first last) (hl : last < s.size)
    (hk : k ∈ tree.pivots) (hv : (s.get k).Contains v) : (tree.route s v).first = k + 1 := by
  induction tree generalizing first last with
  | leaf table => cases hk
  | split pivot left right ihl ihr =>
    obtain ⟨hle, hlt, hcl, hcr⟩ := h
    rcases List.mem_append.1 hk with hk | hk
    · have inside := hcl.mem_pivots hk
      rw [route_split_of_lt inside.2 (by omega) hv]
      exact ihl hcl (by omega) hk
    · rcases List.mem_cons.1 hk with rfl | hk
      · -- the split sends its own pivot range to the right, below all that is stored there
        rw [route_split_of_le (Nat.le_refl _) (by omega) hv]
        apply hcr.first_route_of_lt
        intro i hi hj
        exact RangeStore.lt_low_of_contains hi (by omega) hv
      · have inside := hcr.mem_pivots hk
        rw [route_split_of_le (by omega) (by omega) hv]
        exact ihr hcr hl hk

/-- A value of a range that is no pivot is led to the table that holds the range. -/
theorem Covers.holds_route (h : tree.Covers first last) (hl : last < s.size) (hf : first ≤ k)
    (hkl : k ≤ last) (hk : k ∉ tree.pivots) (hv : (s.get k).Contains v) :
    (tree.route s v).Holds k := by
  induction tree generalizing first last with
  | leaf table =>
    obtain ⟨rfl, rfl, -⟩ := h
    exact ⟨hf, hkl⟩
  | split pivot left right ihl ihr =>
    obtain ⟨hle, hlt, hcl, hcr⟩ := h
    simp only [pivots, List.mem_append, List.mem_cons, not_or] at hk
    rcases Nat.lt_or_gt_of_ne hk.2.1 with hlow | hhigh
    · rw [route_split_of_lt hlow (by omega) hv]
      exact ihl hcl (by omega) hf (by omega) hk.1
    · rw [route_split_of_le (Nat.le_of_lt hhigh) (by omega) hv]
      exact ihr hcr hl hhigh hkl hk.2.2

/-- Comparisons lead a value of a range to its table, unless the range is a pivot. -/
theorem Covers.route_of_contains (h : tree.Covers first last) (hl : last < s.size) (hf : first ≤ k)
    (hkl : k ≤ last) (hv : (s.get k).Contains v) :
    (tree.route s v).Holds k ↔ k ∉ tree.pivots := by
  constructor
  · intro held hk
    have next := h.first_route_of_mem_pivots hl hk hv
    have reaches := held.1
    omega
  · intro hk
    exact h.holds_route hl hf hkl hk hv

/-- Every value of every range is led to its table exactly when there is nothing to compare. -/
theorem Covers.forall_holds_route_iff (h : tree.Covers first last) (hl : last < s.size) :
    (∀ k, first ≤ k → k ≤ last → ∀ v, (s.get k).Contains v → (tree.route s v).Holds k) ↔
      tree.leaves.length = 1 := by
  have lengths := congrArg List.length h.map_last_leaves
  simp only [List.length_map, List.length_append, List.length_singleton] at lengths
  constructor
  · intro all
    by_contra more
    -- the start of a pivot range is a value of that range
    obtain ⟨k, hk⟩ := List.exists_mem_of_length_pos (by omega : 0 < tree.pivots.length)
    have inside := h.mem_pivots hk
    have hv : (s.get k).Contains (s.get k).low :=
      ⟨UInt32.le_refl _, RangeStore.low_le_high (by omega)⟩
    have held := all k (by omega) (by omega) _ hv
    exact (h.route_of_contains hl (by omega) (by omega) hv).1 held hk
  · intro one k hf hkl v hv
    have none : tree.pivots = [] := List.length_eq_zero_iff.1 (by omega)
    apply h.holds_route hl hf hkl _ hv
    simp [none]

end Decision

namespace CostTable

/-- The cheapest tree leads a value of a range to the table that holds the range, except where the
range is the last of its table and another table follows: then to that other table. So it finds
every value of every range exactly when it is a single table. -/
theorem tree_route (s : RangeStore) (c : Catalog) (hn : 0 < s.size) :
    ∃ t, optimize s c = .ok t ∧ (t.total.isFinite = true →
      ∃ tree, t.tree = .ok tree ∧
        tree.leaves.map FlatTable.last = tree.pivots ++ [s.size - 1] ∧
        (∀ k < s.size, ∀ v, (s.get k).Contains v →
          ((tree.route s v).Holds k ↔ k ∉ tree.pivots) ∧
          (k ∈ tree.pivots → (tree.route s v).first = k + 1)) ∧
        ((∀ k < s.size, ∀ v, (s.get k).Contains v → (tree.route s v).Holds k) ↔
          tree.leaves.length = 1)) := by
  obtain ⟨t, ht⟩ := exists_optimize c hn
  refine ⟨t, ht, ?_⟩
  intro hfin
  obtain ⟨tree, htree, hc⟩ := exists_tree ht hn hfin
  have covers := hc.covers (Nat.zero_le _)
  refine ⟨tree, htree, covers.map_last_leaves, ?_, ?_⟩
  · intro k hk v hv
    constructor
    · exact covers.route_of_contains (by omega) (Nat.zero_le _) (by omega) hv
    · intro hp
      exact covers.first_route_of_mem_pivots (by omega) hp hv
  · rw [← covers.forall_holds_route_iff (by omega : s.size - 1 < s.size)]
    constructor
    · intro all k _ hk v hv
      exact all k (by omega) v hv
    · intro all k hk v hv
      exact all k (Nat.zero_le _) (by omega) v hv

theorem tree_route_farApart :
    0 < farApart.size ∧ ∃ t, optimize farApart wordsOnly = .ok t ∧ t.total.isFinite = true ∧
      ∃ tree, t.tree = .ok tree ∧ tree.leaves.map FlatTable.last = tree.pivots ++ [2] ∧
        (∀ k < 3, ∀ v, (farApart.get k).Contains v →
          ((tree.route farApart v).Holds k ↔ k ∉ tree.pivots) ∧
          (k ∈ tree.pivots → (tree.route farApart v).first = k + 1)) ∧
        ((∀ k < 3, ∀ v, (farApart.get k).Contains v → (tree.route farApart v).Holds k) ↔
          tree.leaves.length = 1) := by
  obtain ⟨t, ht, h⟩ := tree_route farApart wordsOnly (by decide)
  exact ⟨by decide, t, ht, finite_farApart ht, h (finite_farApart ht)⟩

/-- The first of three values far apart is led to the table of the second, so not every value is
led to the table that holds it. -/
theorem not_forall_holds_route :
    ¬ ∀ (s : RangeStore) (c : Catalog) (t : CostTable) (tree : Decision), 0 < s.size →
      optimize s c = .ok t → t.total.isFinite = true → t.tree = .ok tree →
      ∀ k < s.size, ∀ v, (s.get k).Contains v → (tree.route s v).Holds k := by
  intro all
  obtain ⟨t, ht⟩ := exists_optimize wordsOnly (by decide : 0 < farApart.size)
  have htree : t.tree = .ok farApartTree :=
    (tree_eq_ok_iff ht (finite_farApart ht)).2 (chooses_farApart ht)
  have held : (farApartTree.route farApart 0).Holds 0 :=
    all farApart wordsOnly t _ (by decide) ht (finite_farApart ht) htree 0 (by decide) 0 (by decide)
  exact absurd held (by decide)

end CostTable

end RangeLookup
