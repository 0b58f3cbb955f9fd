import RangeLookup.Proofs.CostTable.Agreement
import RangeLookup.Proofs.CostTable.Optimal

/-!
# What the catalog does to the costs

The order of the formats of a catalog decides which of two equally cheap ones is taken, and no cost
(`cost_eq_of_perm`). More formats leave every encoding what it was and add others, so no run gets
dearer (`cost_le_of_subset`). That is an argument about all encodings, and a cell is the least of
them as long as twenty bytes a range make a word: beyond that, a part of the run may get smaller and
deeper at once, and where the sum of the sizes is the greatest word only the depth is seen.
-/

namespace RangeLookup

/-- An encoding in the formats of a catalog is one in those of a greater catalog. -/
theorem Decision.Encoding.of_subset {c d : Catalog} {tree : Decision} {first last : Nat}
    (h : tree.Encoding c first last) (more : c.formats ⊆ d.formats) :
    tree.Encoding d first last :=
  ⟨h.covers, fun t ht => more (h.formats t ht)⟩

namespace CostTable

variable {s : RangeStore} {c d : Catalog} {t u : CostTable} {first last : Nat}

/-- The order of the formats decides no cost. -/
theorem cost_eq_of_perm (ht : optimize s c = .ok t) (hu : optimize s d = .ok u)
    (same : c.formats.Perm d.formats) (hle : first ≤ last) (hl : last < s.size) :
    t.cost first last = u.cost first last := by
  rw [cost_eq_leastCost ht hle hl, cost_eq_leastCost hu hle hl]
  have tables : ∀ a b, a ≤ b → b ≤ last →
      Cost.least (c.formats.map fun f => (FlatTable.mk f a b).cost s) =
        Cost.least (d.formats.map fun f => (FlatTable.mk f (a + 0) (b + 0)).cost s) := by
    intro a b _ _
    apply Cost.least_eq_of_mem_iff
    intro cost
    exact (same.map _).mem_iff
  exact leastCost_congr tables hle (Nat.le_refl _)

/-- With more formats no run gets dearer. -/
theorem cost_le_of_subset (ht : optimize s c = .ok t) (hu : optimize s d = .ok u)
    (hb : 20 * s.size ≤ 4294967296) (more : c.formats ⊆ d.formats) (hle : first ≤ last)
    (hl : last < s.size) : u.cost first last ≤ t.cost first last := by
  by_cases hfin : t.cost first last = Cost.infinite
  · rw [hfin]
    exact Cost.le_infinite _
  · obtain ⟨tree, chosen⟩ := exists_chooses ht hle hl hfin
    rw [← chosen.cost_of_optimize ht]
    exact cost_le_cost hu hb hl ((chosen.encoding ht hle).of_subset more)

/-- Catalogs of the same formats in any order give every run the same cost. With more formats no
run costs more, and none that has an encoding loses it, where twenty bytes a range make a word. -/
theorem cost_of_catalogs (s : RangeStore) (c d : Catalog) (hn : 0 < s.size) :
    ∃ t u, optimize s c = .ok t ∧ optimize s d = .ok u ∧
      (c.formats.Perm d.formats → ∀ first last, first ≤ last → last < s.size →
        t.cost first last = u.cost first last) ∧
      (c.formats ⊆ d.formats → 20 * s.size ≤ 4294967296 →
        ∀ first last, first ≤ last → last < s.size →
          u.cost first last ≤ t.cost first last ∧
          ((t.cost first last).isFinite = true → (u.cost first last).isFinite = true)) := by
  obtain ⟨t, ht⟩ := exists_optimize c hn
  obtain ⟨u, hu⟩ := exists_optimize d hn
  refine ⟨t, u, ht, hu, ?_, ?_⟩
  · intro same first last hle hl
    exact cost_eq_of_perm ht hu same hle hl
  · intro more hb first last hle hl
    have le := cost_le_of_subset ht hu hb more hle hl
    refine ⟨le, ?_⟩
    rw [Cost.isFinite_iff, Cost.isFinite_iff]
    exact Cost.ne_infinite_of_le le

/-- The formats of the standard catalog, the wider one first. -/
def widerFirst : Catalog := ⟨[.doubleWords, .words], by decide, by decide⟩

theorem cost_of_catalogs_farApart :
    0 < farApart.size ∧ 20 * farApart.size ≤ 4294967296 ∧
      Catalog.standard.formats.Perm widerFirst.formats ∧
      wordsOnly.formats ⊆ Catalog.standard.formats ∧
      (∃ t u, optimize farApart .standard = .ok t ∧ optimize farApart widerFirst = .ok u ∧
        ∀ first last, first ≤ last → last < 3 → t.cost first last = u.cost first last) ∧
      ∃ t u, optimize farApart wordsOnly = .ok t ∧ optimize farApart .standard = .ok u ∧
        t.cost 0 2 = ⟨40, 2⟩ ∧ u.cost 0 2 = ⟨24, 0⟩ ∧ u.cost 0 2 ≤ t.cost 0 2 := by
  have same : Catalog.standard.formats.Perm widerFirst.formats := by decide
  have more : wordsOnly.formats ⊆ Catalog.standard.formats := by decide
  refine ⟨by decide, by decide, same, more, ?_, ?_⟩
  · obtain ⟨t, u, ht, hu, equal, -⟩ :=
      cost_of_catalogs farApart .standard widerFirst (by decide)
    exact ⟨t, u, ht, hu, equal same⟩
  · obtain ⟨t, u, ht, hu, -, le⟩ := cost_of_catalogs farApart wordsOnly .standard (by decide)
    have numbers : t.cost 0 2 = ⟨40, 2⟩ ∧ u.cost 0 2 = ⟨24, 0⟩ := by
      cases ht
      cases hu
      decide +kernel
    exact ⟨t, u, ht, hu, numbers.1, numbers.2,
      (le more (by decide) 0 2 (by decide) (by decide)).1⟩

end CostTable

end RangeLookup
