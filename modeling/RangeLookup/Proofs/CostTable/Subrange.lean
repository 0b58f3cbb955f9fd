import RangeLookup.Proofs.Decision.Part

/-!
# What a run costs against its parts

A tree for a run gives a tree for each part of it that is smaller by a byte at least for every range
dropped, so no part takes more bytes than the run (`size_cost_part_add_le`). That needs a size below
the greatest word, from which on every run has the same size; the twenty bytes a range that bound
the size of a tree keep it there.
-/

namespace RangeLookup

namespace CostTable

variable {s : RangeStore} {c : Catalog} {t : CostTable} {first last i j : Nat}

/-- Every range that a part leaves out saves a byte at least, as long as the size of the run is no
greatest word. -/
theorem size_cost_part_add_le (ht : optimize s c = .ok t) (hf : first ≤ i) (hij : i ≤ j)
    (hl : j ≤ last) (hs : last < s.size) (hw : (t.cost first last).size.toNat < 4294967295) :
    (t.cost i j).size.toNat + (last - first) ≤ (t.cost first last).size.toNat + (j - i) := by
  have finite := Cost.ne_infinite_of_size_lt hw
  have ordered : first ≤ last := hf.trans (hij.trans hl)
  obtain ⟨tree, chosen⟩ := exists_chooses ht ordered hs finite
  have encoding := chosen.encoding ht ordered
  rw [← chosen.cost_of_optimize ht] at hw finite ⊢
  have part_finite := encoding.covers.cost_part_ne_infinite hf hij hl hs finite
  have size := Decision.size_cost_eq_min_bytes finite
  have part_size := Decision.size_cost_eq_min_bytes part_finite
  have bytes := encoding.covers.bytes_part_add_le hf hij hl
  have least : t.cost i j ≤ (tree.part i j).cost s := by
    rw [cost_eq_leastCost ht hij (by omega)]
    exact Decision.leastCost_le_of_size_lt (encoding.part hf hij hl) (by omega)
  rw [Cost.le_iff_toNat] at least
  omega

/-- The size of a finite cell is no greatest word, as long as twenty bytes a range make a word. -/
theorem size_cost_lt (ht : optimize s c = .ok t) (hb : 20 * s.size ≤ 4294967296)
    (hle : first ≤ last) (hl : last < s.size) (hfin : t.cost first last ≠ Cost.infinite) :
    (t.cost first last).size.toNat < 4294967295 := by
  obtain ⟨tree, chosen⟩ := exists_chooses ht hle hl hfin
  rw [← chosen.cost_of_optimize ht] at hfin ⊢
  have size := Decision.size_cost_le (chosen.covers hle) hfin
  unfold Cost.splitSize at size
  omega

/-- A part of a run takes no more bytes than the run, also where sizes are the greatest word or
there is no encoding. A part that leaves out a range takes fewer, where the run has an encoding and
twenty bytes a range make a word. -/
theorem size_cost_subrange (s : RangeStore) (c : Catalog) (hn : 0 < s.size) :
    ∃ t, optimize s c = .ok t ∧
      ∀ first i j last, first ≤ i → i ≤ j → j ≤ last → last < s.size →
        (t.cost i j).size ≤ (t.cost first last).size ∧
        ((i, j) ≠ (first, last) → (t.cost first last).isFinite = true →
          20 * s.size ≤ 4294967296 → (t.cost i j).size < (t.cost first last).size) := by
  obtain ⟨t, ht⟩ := exists_optimize c hn
  refine ⟨t, ht, ?_⟩
  intro first i j last hf hij hl hs
  constructor
  · rw [UInt32.le_iff_toNat_le]
    by_cases hw : (t.cost first last).size.toNat < 4294967295
    · have saved := size_cost_part_add_le ht hf hij hl hs hw
      omega
    · -- the size of the run is the greatest word
      have word := (t.cost i j).size.toNat_lt
      omega
  · intro proper hfin hb
    have hw := size_cost_lt ht hb (by omega) hs (Cost.isFinite_iff.1 hfin)
    have saved := size_cost_part_add_le ht hf hij hl hs hw
    have fewer : j - i < last - first := by
      rw [Ne, Prod.mk.injEq] at proper
      omega
    rw [UInt32.lt_iff_toNat_lt]
    omega

/-- Of three values far apart, the last two take fewer bytes than all, and one of them fewer still. -/
theorem size_cost_subrange_farApart :
    0 < farApart.size ∧ 20 * farApart.size ≤ 4294967296 ∧
      ∃ t, optimize farApart wordsOnly = .ok t ∧ (t.cost 0 2).isFinite = true ∧
        (t.cost 1 2).isFinite = true ∧ (t.cost 1 2).size < (t.cost 0 2).size ∧
        (t.cost 1 1).size < (t.cost 1 2).size := by
  obtain ⟨t, ht, parts⟩ := size_cost_subrange farApart wordsOnly (by decide)
  have hfin : (t.cost 0 2).isFinite = true ∧ (t.cost 1 2).isFinite = true := by
    cases ht
    decide +kernel
  obtain ⟨-, left_end⟩ := parts 0 1 2 2 (by decide) (by decide) (by decide) (by decide)
  obtain ⟨-, right_end⟩ := parts 1 1 1 2 (by decide) (by decide) (by decide) (by decide)
  exact ⟨by decide, by decide, t, ht, hfin.1, hfin.2, left_end (by decide) hfin.1 (by decide),
    right_end (by decide) hfin.2 (by decide)⟩

end CostTable

end RangeLookup
