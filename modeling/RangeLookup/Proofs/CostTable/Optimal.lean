import RangeLookup.Proofs.CostTable.Choice
import RangeLookup.Proofs.Decision.Price

/-!
# Cells are least over all trees

The trees for a run are its `Encoding`s: those that cover it with formats of the catalog. No
encoding costs less than the exhaustive search says (`leastCost_le_cost`), by induction on the tree:
its parts cost no less than the least costs of theirs, and a comparison respects that as long as
nothing saturates. The tree that the table chooses attains the cell, whatever the sizes.
-/

namespace RangeLookup

namespace Decision

/-- The tree encodes the run in formats of the catalog. -/
structure Encoding (c : Catalog) (tree : Decision) (first last : Nat) : Prop where
  covers : tree.Covers first last
  formats : ∀ t ∈ tree.leaves, t.format ∈ c.formats

variable {s : RangeStore} {c : Catalog} {first last pivot : Nat} {left right : Decision}

theorem Encoding.parts (h : Encoding c (split pivot left right) first last) :
    Encoding c left first pivot ∧ Encoding c right (pivot + 1) last := by
  obtain ⟨⟨-, -, hcl, hcr⟩, hf⟩ := h
  simp only [leaves_split, List.mem_append] at hf
  constructor
  · exact ⟨hcl, fun t ht => hf t (.inl ht)⟩
  · exact ⟨hcr, fun t ht => hf t (.inr ht)⟩

/-- The search tries every table. -/
theorem leastCost_le_table {t : FlatTable} (hf : t.format ∈ c.formats) :
    leastCost s c t.first t.last ≤ t.cost s := by
  rw [leastCost_eq]
  apply (min_le_left _ _).trans
  apply Cost.least_le
  exact List.mem_map.2 ⟨t.format, hf, rfl⟩

/-- The search tries every split. -/
theorem leastCost_le_split (hle : first ≤ pivot) (hlt : pivot < last) :
    leastCost s c first last ≤
      Cost.split (leastCost s c first pivot) (leastCost s c (pivot + 1) last) := by
  rw [leastCost_eq]
  apply (min_le_right _ _).trans
  apply Cost.least_le
  exact List.mem_map.2 ⟨pivot, CostTable.mem_pivots.2 ⟨hle, hlt⟩, rfl⟩

/-- No encoding of a run costs less than its least cost, as long as its size is no greatest word. -/
theorem leastCost_le_of_size_lt {tree : Decision} (h : Encoding c tree first last)
    (hs : (tree.cost s).size.toNat < 4294967295) : leastCost s c first last ≤ tree.cost s := by
  induction tree generalizing first last with
  | leaf table =>
    obtain ⟨rfl, rfl, -⟩ := h.covers
    exact leastCost_le_table (h.formats table (by simp))
  | split pivot left right ihl ihr =>
    obtain ⟨hle, hlt, -, -⟩ := h.covers
    obtain ⟨hl, hr⟩ := h.parts
    obtain ⟨fl, fr⟩ := Cost.finite_of_split (Cost.ne_infinite_of_size_lt hs)
    rw [cost, Cost.split_eq_of_finite fl fr, toNat_saturate] at hs
    apply (leastCost_le_split hle hlt).trans
    exact Cost.split_le_split (ihl hl (by omega)) (ihr hr (by omega)) (.inr (.inr (by omega)))

/-- No encoding of a run costs less than its least cost, as long as twenty bytes a range make a
word. -/
theorem leastCost_le_cost {tree : Decision} (h : Encoding c tree first last)
    (hb : 20 * (last + 1 - first) ≤ 4294967296) : leastCost s c first last ≤ tree.cost s := by
  by_cases finite : tree.cost s = Cost.infinite
  · rw [finite]
    exact Cost.le_infinite _
  · have size := size_cost_le h.covers finite
    unfold Cost.splitSize at size
    exact leastCost_le_of_size_lt h (by omega)

end Decision

namespace CostTable

variable {s : RangeStore} {c : Catalog} {t : CostTable} {tree : Decision} {first last : Nat}

theorem Chooses.encoding (ht : optimize s c = .ok t) (h : t.Chooses tree first last)
    (hle : first ≤ last) : tree.Encoding c first last := by
  refine ⟨h.covers hle, ?_⟩
  rw [← (filled_optimize ht).catalog]
  exact h.mem_formats

theorem Chooses.cost_of_optimize (ht : optimize s c = .ok t) (h : t.Chooses tree first last) :
    tree.cost s = t.cost first last := by
  rw [← h.cost_eq, (filled_optimize ht).store]

/-- The tree of a whole table costs the total. -/
theorem Chooses.cost_eq_total (ht : optimize s c = .ok t) (h : t.Chooses tree 0 (s.size - 1)) :
    tree.cost s = t.total := by
  rw [h.cost_of_optimize ht, total_eq ht]

theorem cost_le_cost (ht : optimize s c = .ok t) (hs : 20 * s.size ≤ 4294967296)
    (hl : last < s.size) (h : tree.Encoding c first last) : t.cost first last ≤ tree.cost s := by
  rw [cost_eq_leastCost ht h.covers.le hl]
  exact Decision.leastCost_le_cost h (by omega)

/-- Every cell is the least cost of an encoding of its run, and the tree of a table is an encoding
of all ranges that costs the least. -/
theorem optimize_least (s : RangeStore) (c : Catalog) (hn : 0 < s.size)
    (hs : 20 * s.size ≤ 4294967296) :
    ∃ t, optimize s c = .ok t ∧
      (∀ first last, first ≤ last → last < s.size →
        (∀ tree : Decision, tree.Encoding c first last → t.cost first last ≤ tree.cost s) ∧
        ((t.cost first last).isFinite = true →
          ∃ tree : Decision, tree.Encoding c first last ∧ tree.cost s = t.cost first last)) ∧
      (t.total.isFinite = true →
        ∃ tree, t.tree = .ok tree ∧ tree.Encoding c 0 (s.size - 1) ∧ tree.cost s = t.total ∧
          ∀ other : Decision, other.Encoding c 0 (s.size - 1) → tree.cost s ≤ other.cost s) := by
  obtain ⟨t, ht⟩ := exists_optimize c hn
  refine ⟨t, ht, ?_, ?_⟩
  · intro first last hle hl
    constructor
    · intro tree henc
      exact cost_le_cost ht hs hl henc
    · intro hfin
      obtain ⟨tree, hc⟩ := exists_chooses ht hle hl (Cost.isFinite_iff.1 hfin)
      exact ⟨tree, hc.encoding ht hle, hc.cost_of_optimize ht⟩
  · intro hfin
    obtain ⟨tree, htree, hc⟩ := exists_tree ht hn hfin
    refine ⟨tree, htree, hc.encoding ht (Nat.zero_le _), hc.cost_eq_total ht, ?_⟩
    intro other ho
    rw [hc.cost_eq_total ht, total_eq ht]
    exact cost_le_cost ht hs (by omega) ho

theorem optimize_least_farApart :
    0 < farApart.size ∧ 20 * farApart.size ≤ 4294967296 ∧
      ∃ t, optimize farApart wordsOnly = .ok t ∧ t.total.isFinite = true ∧
        (∀ first last, first ≤ last → last < 3 →
          (∀ tree : Decision, tree.Encoding wordsOnly first last →
            t.cost first last ≤ tree.cost farApart) ∧
          ((t.cost first last).isFinite = true → ∃ tree : Decision,
            tree.Encoding wordsOnly first last ∧ tree.cost farApart = t.cost first last)) ∧
        ∃ tree, t.tree = .ok tree ∧ tree.Encoding wordsOnly 0 2 ∧ tree.cost farApart = t.total ∧
          ∀ other : Decision, other.Encoding wordsOnly 0 2 →
            tree.cost farApart ≤ other.cost farApart := by
  obtain ⟨t, ht, cells, total⟩ := optimize_least farApart wordsOnly (by decide) (by decide)
  exact ⟨by decide, by decide, t, ht, finite_farApart ht, cells, total (finite_farApart ht)⟩

end CostTable

end RangeLookup
