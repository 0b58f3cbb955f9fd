import RangeLookup.Decision.Parts
import RangeLookup.Proofs.CostTable.Choice

/-!
# What a cost table depends on

The search for the least cost of a run never looks at the ranges themselves, only at what the flat
tables within the run cost. So where the tables of two searches agree, the least costs do
(`leastCost_congr`), with no bound on sizes. The same holds for the choices at the nodes of a tree:
cost tables that agree choose the same tree (`Agrees.chooses`). The runs of one side may lie at
other indices than those of the other, all higher by one offset.
-/

namespace RangeLookup

section Least

variable {s u : RangeStore} {c d : Catalog} {offset last a b : Nat}

theorem CostTable.pivots_shift (a b offset : Nat) :
    pivots (a + offset) (b + offset) = (pivots a b).map (· + offset) := by
  rw [pivots, pivots, Nat.add_sub_add_right]
  simp only [Nat.add_comm _ offset, List.map_add_range']

/-- Runs cost the same if the cheapest tables of all runs within them do. -/
theorem leastCost_congr
    (tables : ∀ a b, a ≤ b → b ≤ last →
      Cost.least (c.formats.map fun f => (FlatTable.mk f a b).cost u) =
        Cost.least (d.formats.map fun f => (FlatTable.mk f (a + offset) (b + offset)).cost s))
    (hab : a ≤ b) (hb : b ≤ last) :
    leastCost u c a b = leastCost s d (a + offset) (b + offset) := by
  induction hn : b - a using Nat.strong_induction_on generalizing a b with
  | _ n ih =>
    rw [leastCost_eq, leastCost_eq s, tables a b hab hb, CostTable.pivots_shift, List.map_map]
    congr 2
    apply List.map_congr_left
    intro p hp
    obtain ⟨hl, hu⟩ := CostTable.mem_pivots.1 hp
    have left := ih (p - a) (by omega) hl (by omega) rfl
    have right := ih (b - (p + 1)) (by omega) hu hb rfl
    rw [Function.comp_apply, left, right, Nat.add_right_comm p 1 offset]

end Least

namespace CostTable

variable {t v : CostTable} {tree : Decision} {offset last a b p : Nat} {f : Format}

/-- Up to the index `last`, the first table has the costs that the second has for the runs whose
indices lie higher by `offset`. -/
structure Agrees (t v : CostTable) (offset last : Nat) : Prop where
  catalog : t.catalog = v.catalog
  table : ∀ f a b, a ≤ b → b ≤ last → t.tableCost f a b = v.tableCost f (a + offset) (b + offset)
  cost : ∀ a b, a ≤ b → b ≤ last → t.cost a b = v.cost (a + offset) (b + offset)

/-- Filled tables agree if flat tables cost the same for both. -/
theorem agrees_of_optimize {s u : RangeStore} {c : Catalog} (ht : optimize u c = .ok t)
    (hv : optimize s c = .ok v) (hu : last < u.size) (hs : last + offset < s.size)
    (tables : ∀ f a b, a ≤ b → b ≤ last →
      (FlatTable.mk f a b).cost u = (FlatTable.mk f (a + offset) (b + offset)).cost s) :
    t.Agrees v offset last where
  catalog := by rw [(filled_optimize ht).catalog, (filled_optimize hv).catalog]
  table f a b hab hb := by
    rw [tableCost, tableCost, (filled_optimize ht).store, (filled_optimize hv).store]
    exact tables f a b hab hb
  cost a b hab hb := by
    rw [cost_eq_leastCost ht hab (by omega), cost_eq_leastCost hv (by omega) (by omega)]
    refine leastCost_congr ?_ hab hb
    intro i j hij hj
    apply congrArg Cost.least
    exact List.map_congr_left fun f _ => tables f i j hij hj

namespace Agrees

theorem splitCost (h : t.Agrees v offset last) (ha : a ≤ p) (hp : p < b) (hb : b ≤ last) :
    t.splitCost a p b = v.splitCost (a + offset) (p + offset) (b + offset) := by
  have left := h.cost a p ha (by omega)
  have right := h.cost (p + 1) b hp hb
  rw [CostTable.splitCost, CostTable.splitCost, left, right, Nat.add_right_comm p 1 offset]

theorem noFormat (h : t.Agrees v offset last) (hab : a ≤ b) (hb : b ≤ last)
    (hf : t.NoFormat a b) : v.NoFormat (a + offset) (b + offset) := by
  intro f listed
  rw [← h.table f a b hab hb, ← h.cost a b hab hb]
  exact hf f (h.catalog ▸ listed)

theorem choosesFormat (h : t.Agrees v offset last) (hab : a ≤ b) (hb : b ≤ last)
    (hf : t.ChoosesFormat f a b) : v.ChoosesFormat f (a + offset) (b + offset) where
  cost := by
    rw [← h.table f a b hab hb, ← h.cost a b hab hb]
    exact hf.cost
  earliest := by
    obtain ⟨before, after, listed, dearer⟩ := hf.earliest
    refine ⟨before, after, h.catalog ▸ listed, ?_⟩
    intro g hg
    rw [← h.table g a b hab hb, ← h.cost a b hab hb]
    exact dearer g hg

theorem choosesPivot (h : t.Agrees v offset last) (hb : b ≤ last) (hp : t.ChoosesPivot p a b) :
    v.ChoosesPivot (p + offset) (a + offset) (b + offset) where
  noFormat := h.noFormat (hp.le.trans hp.lt.le) hb hp.noFormat
  le := Nat.add_le_add_right hp.le offset
  lt := Nat.add_lt_add_right hp.lt offset
  cost := by
    rw [← h.splitCost hp.le hp.lt hb, ← h.cost a b (hp.le.trans hp.lt.le) hb]
    exact hp.cost
  earliest q hq hlt := by
    -- a pivot further left is the image of one that the first table passed over
    obtain ⟨q, rfl⟩ := Nat.exists_eq_add_of_le' (Nat.le_of_add_left_le hq)
    have le := Nat.le_of_add_le_add_right hq
    have lt := Nat.lt_of_add_lt_add_right hlt
    rw [← h.splitCost le (lt.trans hp.lt) hb, ← h.cost a b (hp.le.trans hp.lt.le) hb]
    exact hp.earliest q le lt

/-- Tables that agree on a run choose the same tree for it. -/
theorem chooses (h : t.Agrees v offset last) (hab : a ≤ b) (hb : b ≤ last)
    (hc : t.Chooses tree a b) : v.Chooses (tree.shift offset) (a + offset) (b + offset) := by
  induction tree generalizing a b with
  | leaf table =>
    obtain ⟨rfl, rfl, hf⟩ := hc
    exact ⟨rfl, rfl, h.choosesFormat hab hb hf⟩
  | split p left right ihl ihr =>
    obtain ⟨hp, hl, hr⟩ := hc
    have right_side := ihr hp.lt hb hr
    rw [Nat.add_right_comm p 1 offset] at right_side
    exact ⟨h.choosesPivot hb hp, ihl hp.le (hp.lt.le.trans hb) hl, right_side⟩

end Agrees

end CostTable

end RangeLookup
