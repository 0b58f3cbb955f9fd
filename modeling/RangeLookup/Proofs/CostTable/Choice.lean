import RangeLookup.CostTable.Tree
import RangeLookup.Proofs.Cost.Order
import RangeLookup.Proofs.CostTable.Fill
import RangeLookup.Proofs.Decision.Tiling

/-!
# The choice at a node

The choice at a node is said here without the search that finds it: `ChoosesFormat` and
`ChoosesPivot` name the first candidate that has the cost of the run, and `Chooses` asks for that
choice at every node. A tree comes out of the search exactly when the table chooses it
(`treeOver_eq_ok_iff`), so there is at most one for a run. That there is one needs that a cell is
the least of its candidates and that the parts of a finite split are finite again
(`exists_chooses`). Neither needs a bound on sizes: candidates that collide at the greatest word are
still candidates, and the first of them is taken.
-/

namespace RangeLookup

namespace CostTable

variable {t : CostTable} {first last pivot : Nat} {f : Format} {tree : Decision}

/-- No format of the catalog gives the run the cost of its cell. -/
def NoFormat (t : CostTable) (first last : Nat) : Prop :=
  ∀ f ∈ t.catalog.formats, t.tableCost f first last ≠ t.cost first last

/-- The format is the first of the catalog that gives the run the cost of its cell. -/
structure ChoosesFormat (t : CostTable) (f : Format) (first last : Nat) : Prop where
  cost : t.tableCost f first last = t.cost first last
  earliest : ∃ before after, t.catalog.formats = before ++ f :: after ∧
    ∀ g ∈ before, t.tableCost g first last ≠ t.cost first last

/-- The run has the cost of no table, and the split after the range at `pivot` is the first that
gives it the cost of its cell. -/
structure ChoosesPivot (t : CostTable) (pivot first last : Nat) : Prop where
  noFormat : t.NoFormat first last
  le : first ≤ pivot
  lt : pivot < last
  cost : t.splitCost first pivot last = t.cost first last
  earliest : ∀ p, first ≤ p → p < pivot → t.splitCost first p last ≠ t.cost first last

/-- At every node of the tree for the run, the table chooses what stands there. -/
def Chooses (t : CostTable) : Decision → Nat → Nat → Prop
  | .leaf table, first, last =>
    table.first = first ∧ table.last = last ∧ t.ChoosesFormat table.format first last
  | .split pivot left right, first, last =>
    t.ChoosesPivot pivot first last ∧ t.Chooses left first pivot ∧ t.Chooses right (pivot + 1) last

theorem cheapestFormat?_eq_none_iff :
    t.cheapestFormat? first last = none ↔ t.NoFormat first last := by
  simp [cheapestFormat?, NoFormat]

theorem cheapestFormat?_eq_some_iff :
    t.cheapestFormat? first last = some f ↔ t.ChoosesFormat f first last := by
  simp only [cheapestFormat?, List.find?_eq_some_iff_append, decide_eq_true_eq,
    Bool.not_eq_true', decide_eq_false_iff_not]
  constructor
  · rintro ⟨cost, earliest⟩
    exact ⟨cost, earliest⟩
  · intro h
    exact ⟨h.cost, h.earliest⟩

theorem cheapestPivot?_eq_some_iff (hf : t.NoFormat first last) :
    t.cheapestPivot? first last = some pivot ↔ t.ChoosesPivot pivot first last := by
  rw [cheapestPivot?, pivots, List.find?_range'_eq_some, ← pivots, mem_pivots]
  simp only [decide_eq_true_eq, Bool.not_eq_true', decide_eq_false_iff_not]
  constructor
  · rintro ⟨cost, ⟨le, lt⟩, earliest⟩
    exact ⟨hf, le, lt, cost, earliest⟩
  · intro h
    exact ⟨h.cost, ⟨h.le, h.lt⟩, h.earliest⟩

theorem treeOver_of_format (h : t.ChoosesFormat f first last) :
    t.treeOver first last = .ok (.leaf ⟨f, first, last⟩) := by
  rw [treeOver, cheapestFormat?_eq_some_iff.2 h]

theorem treeOver_of_pivot (h : t.ChoosesPivot pivot first last) :
    t.treeOver first last = (do
      let left ← t.treeOver first pivot
      let right ← t.treeOver (pivot + 1) last
      return .split pivot left right) := by
  have hp := (cheapestPivot?_eq_some_iff h.noFormat).2 h
  rw [treeOver, cheapestFormat?_eq_none_iff.2 h.noFormat]
  dsimp only
  split
  · next p hp' => cases hp.symm.trans hp'; rfl
  · next hp' => cases hp.symm.trans hp'

theorem treeOver_of_none (hf : t.NoFormat first last)
    (hp : t.cheapestPivot? first last = none) : t.treeOver first last = .error t.infeasible := by
  rw [treeOver, cheapestFormat?_eq_none_iff.2 hf]
  dsimp only
  split
  · next p hp' => cases hp.symm.trans hp'
  · rfl

/-- A run has a first format, or no format and a first split, or neither. -/
theorem choice_cases (t : CostTable) (first last : Nat) :
    (∃ f, t.ChoosesFormat f first last) ∨ (∃ pivot, t.ChoosesPivot pivot first last) ∨
      t.NoFormat first last ∧ t.cheapestPivot? first last = none := by
  cases hf : t.cheapestFormat? first last with
  | some f => exact .inl ⟨f, cheapestFormat?_eq_some_iff.1 hf⟩
  | none =>
    have noFormat := cheapestFormat?_eq_none_iff.1 hf
    cases hp : t.cheapestPivot? first last with
    | some pivot => exact .inr (.inl ⟨pivot, (cheapestPivot?_eq_some_iff noFormat).1 hp⟩)
    | none => exact .inr (.inr ⟨noFormat, rfl⟩)

/-- A split of two results is a tree exactly when both results are. -/
theorem parts_of_split_ok {a b : Except Error Decision}
    (h : (do let left ← a; let right ← b; return Decision.split pivot left right) = .ok tree) :
    ∃ left right, a = .ok left ∧ b = .ok right ∧ Decision.split pivot left right = tree := by
  cases a with
  | error e => cases h
  | ok left =>
    cases b with
    | error e => cases h
    | ok right =>
      cases h
      exact ⟨left, right, rfl, rfl, rfl⟩

/-- The search finds a tree for a run exactly when the table chooses it. -/
theorem treeOver_eq_ok_iff : t.treeOver first last = .ok tree ↔ t.Chooses tree first last := by
  constructor
  · intro h
    induction tree generalizing first last with
    | leaf table =>
      rcases t.choice_cases first last with ⟨f, hf⟩ | ⟨pivot, hp⟩ | ⟨hf, hp⟩
      · rw [treeOver_of_format hf] at h
        cases h
        exact ⟨rfl, rfl, hf⟩
      · rw [treeOver_of_pivot hp] at h
        obtain ⟨left, right, -, -, he⟩ := parts_of_split_ok h
        cases he
      · rw [treeOver_of_none hf hp] at h
        cases h
    | split p l r ihl ihr =>
      rcases t.choice_cases first last with ⟨f, hf⟩ | ⟨pivot, hp⟩ | ⟨hf, hp⟩
      · rw [treeOver_of_format hf] at h
        cases h
      · rw [treeOver_of_pivot hp] at h
        obtain ⟨left, right, hl, hr, he⟩ := parts_of_split_ok h
        cases he
        exact ⟨hp, ihl hl, ihr hr⟩
      · rw [treeOver_of_none hf hp] at h
        cases h
  · intro h
    induction tree generalizing first last with
    | leaf table =>
      obtain ⟨rfl, rfl, hf⟩ := h
      exact treeOver_of_format hf
    | split p l r ihl ihr =>
      obtain ⟨hp, hl, hr⟩ := h
      rw [treeOver_of_pivot hp, ihl hl, ihr hr]
      rfl

theorem Chooses.unique {other : Decision} (h : t.Chooses tree first last)
    (ho : t.Chooses other first last) : tree = other :=
  Except.ok.inj ((treeOver_eq_ok_iff.2 h).symm.trans (treeOver_eq_ok_iff.2 ho))

theorem Chooses.covers (h : t.Chooses tree first last) (hle : first ≤ last) :
    tree.Covers first last := by
  induction tree generalizing first last with
  | leaf table => exact ⟨h.1, h.2.1, hle⟩
  | split p l r ihl ihr =>
    obtain ⟨hp, hl, hr⟩ := h
    exact ⟨hp.le, hp.lt, ihl hl hp.le, ihr hr hp.lt⟩

/-- A chosen tree costs what the cell of its run says. -/
theorem Chooses.cost_eq (h : t.Chooses tree first last) :
    tree.cost t.store = t.cost first last := by
  induction tree generalizing first last with
  | leaf table =>
    obtain ⟨rfl, rfl, hf⟩ := h
    exact hf.cost
  | split p l r ihl ihr =>
    obtain ⟨hp, hl, hr⟩ := h
    rw [Decision.cost, ihl hl, ihr hr, ← hp.cost, splitCost]

theorem Chooses.mem_formats (h : t.Chooses tree first last) :
    ∀ table ∈ tree.leaves, table.format ∈ t.catalog.formats := by
  induction tree generalizing first last with
  | leaf table =>
    obtain ⟨before, after, hc, -⟩ := h.2.2.earliest
    simp [hc]
  | split p l r ihl ihr =>
    intro table hm
    rw [Decision.leaves_split, List.mem_append] at hm
    exact hm.elim (ihl h.2.1 table) (ihr h.2.2 table)

section Optimize

variable {s : RangeStore} {c : Catalog}

/-- A finite cell has a candidate that equals it. -/
theorem choice_of_finite (h : optimize s c = .ok t) (hle : first ≤ last) (hl : last < s.size)
    (hfin : t.cost first last ≠ Cost.infinite) :
    (∃ f, t.ChoosesFormat f first last) ∨ ∃ pivot, t.ChoosesPivot pivot first last := by
  rcases t.choice_cases first last with hf | hp | ⟨hf, hp⟩
  · exact .inl hf
  · exact .inr hp
  · exfalso
    have hmin := cost_eq_min h hle hl
    rcases min_choice (t.minTableCost first last) (t.minSplitCost first last) with hm | hm
    · -- a format has the cost of the cell
      rw [hm, minTableCost] at hmin
      rw [hmin] at hfin
      obtain ⟨f, listed, he⟩ := List.mem_map.1 (Cost.least_mem hfin)
      exact hf f listed (he.trans hmin.symm)
    · -- a split has it
      rw [hm, minSplitCost] at hmin
      rw [hmin] at hfin
      obtain ⟨pivot, listed, he⟩ := List.mem_map.1 (Cost.least_mem hfin)
      have other_cost := List.find?_eq_none.1 hp pivot listed
      exact other_cost (decide_eq_true (he.trans hmin.symm))

/-- A run whose cell is finite has a tree: a split that is chosen for a finite run leaves two finite
runs. -/
theorem exists_chooses (h : optimize s c = .ok t) (hle : first ≤ last) (hl : last < s.size)
    (hfin : t.cost first last ≠ Cost.infinite) : ∃ tree, t.Chooses tree first last := by
  induction hn : last - first using Nat.strong_induction_on generalizing first last with
  | _ n ih =>
    rcases choice_of_finite h hle hl hfin with ⟨f, hf⟩ | ⟨pivot, hp⟩
    · exact ⟨.leaf ⟨f, first, last⟩, rfl, rfl, hf⟩
    · have hpl := hp.le
      have hpu := hp.lt
      rw [← hp.cost, splitCost] at hfin
      obtain ⟨finl, finr⟩ := Cost.finite_of_split hfin
      obtain ⟨left, hleft⟩ := ih (pivot - first) (by omega) (by omega) (by omega) finl rfl
      obtain ⟨right, hright⟩ := ih (last - (pivot + 1)) (by omega) (by omega) hl finr rfl
      exact ⟨.split pivot left right, hp, hleft, hright⟩

theorem tree_eq_ok_iff (h : optimize s c = .ok t) (hfin : t.total.isFinite = true) :
    t.tree = .ok tree ↔ t.Chooses tree 0 (s.size - 1) := by
  rw [CostTable.tree, if_pos hfin, (filled_optimize h).size, treeOver_eq_ok_iff]

/-- A tree is found only where the total is finite. -/
theorem isFinite_of_tree (htree : t.tree = .ok tree) : t.total.isFinite = true := by
  unfold CostTable.tree at htree
  split at htree
  · assumption
  · cases htree

theorem chooses_of_tree (h : optimize s c = .ok t) (htree : t.tree = .ok tree) :
    t.Chooses tree 0 (s.size - 1) := (tree_eq_ok_iff h (isFinite_of_tree htree)).1 htree

/-- A finite total has a tree. -/
theorem exists_tree (h : optimize s c = .ok t) (hn : 0 < s.size) (hfin : t.total.isFinite = true) :
    ∃ tree, t.tree = .ok tree ∧ t.Chooses tree 0 (s.size - 1) := by
  have finite : t.cost 0 (s.size - 1) ≠ Cost.infinite := by
    rw [← total_eq h]
    exact Cost.isFinite_iff.1 hfin
  obtain ⟨tree, hc⟩ := exists_chooses h (Nat.zero_le _) (by omega) finite
  exact ⟨tree, (tree_eq_ok_iff h hfin).2 hc, hc⟩

end Optimize

/-- Where the ranges can be encoded at all, the search finds a tree for them, and it is the one tree
that has the first cheapest candidate at every node. -/
theorem tree_eq_unique_choice (s : RangeStore) (c : Catalog) (hn : 0 < s.size) :
    ∃ t, optimize s c = .ok t ∧ (t.total.isFinite = true →
      ∃ tree, t.tree = .ok tree ∧ tree.Covers 0 (s.size - 1) ∧ Tiles tree.leaves 0 s.size ∧
        t.Chooses tree 0 (s.size - 1) ∧ ∀ other, t.Chooses other 0 (s.size - 1) → other = tree) := by
  obtain ⟨t, ht⟩ := exists_optimize c hn
  refine ⟨t, ht, ?_⟩
  intro hfin
  obtain ⟨tree, htree, hc⟩ := exists_tree ht hn hfin
  have covers := hc.covers (Nat.zero_le _)
  refine ⟨tree, htree, covers, covers.tiles_all hn, hc, ?_⟩
  intro other ho
  have hother : t.tree = .ok other := (tree_eq_ok_iff ht hfin).2 ho
  exact Except.ok.inj (hother.symm.trans htree)

/-- Three values so far apart that no table with offsets of sixteen bits holds two of them. -/
def farApart : RangeStore := ⟨#[⟨0, 0⟩, ⟨0x20000, 0x20000⟩, ⟨0x40000, 0x40000⟩], by decide⟩

/-- The catalog of sixteen-bit fields alone. -/
def wordsOnly : Catalog := ⟨[.words], by decide, by decide⟩

/-- A table for each value, and of two splits that cost the same the one further left first. -/
def farApartTree : Decision :=
  .split 0 (.leaf ⟨.words, 0, 0⟩) (.split 1 (.leaf ⟨.words, 1, 1⟩) (.leaf ⟨.words, 2, 2⟩))

theorem finite_farApart (h : optimize farApart wordsOnly = .ok t) : t.total.isFinite = true := by
  cases h
  decide +kernel

theorem chooses_farApart (h : optimize farApart wordsOnly = .ok t) :
    t.Chooses farApartTree 0 2 := by
  have found : t.cheapestFormat? 0 2 = none ∧ t.cheapestPivot? 0 2 = some 0 ∧
      t.cheapestFormat? 0 0 = some .words ∧ t.cheapestFormat? 1 2 = none ∧
      t.cheapestPivot? 1 2 = some 1 ∧ t.cheapestFormat? 1 1 = some .words ∧
      t.cheapestFormat? 2 2 = some .words := by
    cases h
    decide +kernel
  simp only [cheapestFormat?_eq_none_iff, cheapestFormat?_eq_some_iff] at found
  obtain ⟨n02, p02, f0, n12, p12, f1, f2⟩ := found
  exact ⟨(cheapestPivot?_eq_some_iff n02).1 p02, ⟨rfl, rfl, f0⟩,
    (cheapestPivot?_eq_some_iff n12).1 p12, ⟨rfl, rfl, f1⟩, ⟨rfl, rfl, f2⟩⟩

theorem tree_farApart (h : optimize farApart wordsOnly = .ok t) : t.tree = .ok farApartTree :=
  (tree_eq_ok_iff h (finite_farApart h)).2 (chooses_farApart h)

theorem tree_eq_unique_choice_farApart :
    0 < farApart.size ∧ ∃ t, optimize farApart wordsOnly = .ok t ∧ t.total.isFinite = true ∧
      t.tree = .ok farApartTree ∧ farApartTree.Covers 0 2 ∧ Tiles farApartTree.leaves 0 3 ∧
      t.Chooses farApartTree 0 2 ∧ ∀ other, t.Chooses other 0 2 → other = farApartTree := by
  obtain ⟨t, ht, h⟩ := tree_eq_unique_choice farApart wordsOnly (by decide)
  have hfin := finite_farApart ht
  obtain ⟨tree, htree, covers, tiles, hc, unique⟩ := h hfin
  obtain rfl := unique _ (chooses_farApart ht)
  exact ⟨by decide, t, ht, hfin, htree, covers, tiles, hc, unique⟩

end CostTable

end RangeLookup
