import RangeLookup.Decision.Parts
import RangeLookup.Proofs.CostTable.Optimal
import RangeLookup.Proofs.FlatTable

/-!
# The tree for a part of a run

Dropping ranges at the ends of a run keeps what is needed of a tree for it: a table that can hold
the run can hold the part (`cost_part_ne_infinite`), since offsets from a later base are smaller,
and what holds of every table of the tree holds of what is left of each
(`Covers.forall_leaves_part`). Every range that is dropped saves a byte at least
(`bytes_part_add_le`), whether a table is cut down, a comparison falls away, or a whole subtree does.
-/

namespace RangeLookup

namespace FlatTable

variable {s : RangeStore} {f : Format} {first last i j : Nat}

/-- A table that can hold a run can hold each part of it. -/
theorem cost_part_ne_infinite (h : (mk f first last).cost s ≠ Cost.infinite) (hf : first ≤ i)
    (hij : i ≤ j) (hl : j ≤ last) (hs : last < s.size) : (mk f i j).cost s ≠ Cost.infinite := by
  rw [cost_ne_infinite_iff, feasible, Bool.and_eq_true, List.all_eq_true] at h ⊢
  obtain ⟨offset, spans⟩ := h
  constructor
  · exact Width.holds_of_le offset (offset_le hf hij hl hs)
  · intro r hr
    obtain ⟨k, hi, hj, rfl⟩ := (RangeStore.mem_slice_iff (Nat.lt_of_le_of_lt hl hs)).1 hr
    exact spans _ ((RangeStore.mem_slice_iff hs).2 ⟨k, hf.trans hi, hj.trans hl, rfl⟩)

/-- Each entry takes up a byte at least. -/
theorem bytes_part_add_le (hf : first ≤ i) (hij : i ≤ j) (hl : j ≤ last) :
    (mk f i j).bytes + (last - first) ≤ (mk f first last).bytes + (j - i) := by
  obtain ⟨dropped, hd⟩ := Nat.exists_eq_add_of_le (by omega : j - i ≤ last - first)
  have entries := Nat.mul_le_mul_right dropped f.entrySize_pos
  have count : last - first + 1 = (j - i + 1) + dropped := by omega
  simp only [bytes, FlatTable.count, count, Nat.mul_add]
  omega

end FlatTable

namespace Decision

variable {s : RangeStore} {c : Catalog} {tree : Decision} {first last i j : Nat}

/-- A tree takes up a byte at least for each of its ranges. -/
theorem Covers.length_le_bytes (h : tree.Covers first last) : last + 1 - first ≤ tree.bytes := by
  induction tree generalizing first last with
  | leaf table =>
    obtain ⟨rfl, rfl, hle⟩ := h
    have entries := Nat.mul_le_mul_right table.count table.format.entrySize_pos
    rw [bytes, FlatTable.bytes]
    rw [FlatTable.count] at entries ⊢
    omega
  | split pivot left right ihl ihr =>
    obtain ⟨hle, hlt, hcl, hcr⟩ := h
    have left_le := ihl hcl
    have right_le := ihr hcr
    rw [bytes]
    omega

theorem Covers.part (h : tree.Covers first last) (hf : first ≤ i) (hij : i ≤ j) (hl : j ≤ last) :
    (tree.part i j).Covers i j := by
  induction tree generalizing first last i j with
  | leaf table => exact ⟨rfl, rfl, hij⟩
  | split pivot left right ihl ihr =>
    obtain ⟨hle, hlt, hcl, hcr⟩ := h
    rw [Decision.part]
    split
    · next hj => exact ihl hcl hf hij hj
    · split
      · next hi => exact ihr hcr hi hij hl
      · exact ⟨by omega, by omega, ihl hcl hf (by omega) (Nat.le_refl _),
          ihr hcr (Nat.le_refl _) (by omega) hl⟩

/-- What holds of every table of a tree holds of every table of the tree for a part, if it holds of
a table cut down where it holds of the table. -/
theorem Covers.forall_leaves_part {P : FlatTable → Prop}
    (cut : ∀ t : FlatTable, P t → ∀ i j, t.first ≤ i → i ≤ j → j ≤ t.last → P ⟨t.format, i, j⟩)
    (h : tree.Covers first last) (hf : first ≤ i) (hij : i ≤ j) (hl : j ≤ last)
    (all : ∀ t ∈ tree.leaves, P t) : ∀ u ∈ (tree.part i j).leaves, P u := by
  induction tree generalizing first last i j with
  | leaf table =>
    obtain ⟨rfl, rfl, -⟩ := h
    intro u hu
    rw [Decision.part, leaves_leaf, List.mem_singleton] at hu
    rw [hu]
    exact cut table (all table (by simp)) i j hf hij hl
  | split pivot left right ihl ihr =>
    obtain ⟨hle, hlt, hcl, hcr⟩ := h
    simp only [leaves_split, List.mem_append] at all
    have on_left : ∀ t ∈ left.leaves, P t := fun t ht => all t (.inl ht)
    have on_right : ∀ t ∈ right.leaves, P t := fun t ht => all t (.inr ht)
    rw [Decision.part]
    split
    · next hj => exact ihl hcl hf hij hj on_left
    · split
      · next hi => exact ihr hcr hi hij hl on_right
      · intro u hu
        rw [leaves_split, List.mem_append] at hu
        rcases hu with hu | hu
        · exact ihl hcl hf (by omega) (Nat.le_refl _) on_left u hu
        · exact ihr hcr (Nat.le_refl _) (by omega) hl on_right u hu

/-- An encoding of a run gives one for each part of it. -/
theorem Encoding.part (h : tree.Encoding c first last) (hf : first ≤ i) (hij : i ≤ j)
    (hl : j ≤ last) : (tree.part i j).Encoding c i j := by
  refine ⟨h.covers.part hf hij hl, ?_⟩
  refine h.covers.forall_leaves_part (P := fun t => t.format ∈ c.formats) ?_ hf hij hl h.formats
  intro t listed _ _ _ _ _
  exact listed

/-- The tree for a part exists if the tree does. -/
theorem Covers.cost_part_ne_infinite (h : tree.Covers first last) (hf : first ≤ i) (hij : i ≤ j)
    (hl : j ≤ last) (hs : last < s.size) (hfin : tree.cost s ≠ Cost.infinite) :
    (tree.part i j).cost s ≠ Cost.infinite := by
  have store := s.size_le
  apply cost_ne_infinite (h.part hf hij hl) (by omega)
  have exist : ∀ t ∈ tree.leaves, t.last < s.size ∧ t.cost s ≠ Cost.infinite := by
    intro t ht
    obtain ⟨-, -, stop⟩ := h.tiles.bounds ht
    exact ⟨by omega, leaves_finite hfin t ht⟩
  intro u hu
  refine (h.forall_leaves_part ?_ hf hij hl exist u hu).2
  rintro t ⟨stop, finite⟩ a b start inside upper
  exact ⟨Nat.lt_of_le_of_lt upper stop,
    FlatTable.cost_part_ne_infinite finite start inside upper stop⟩

/-- Every range that is dropped saves a byte at least. -/
theorem Covers.bytes_part_add_le (h : tree.Covers first last) (hf : first ≤ i) (hij : i ≤ j)
    (hl : j ≤ last) : (tree.part i j).bytes + (last - first) ≤ tree.bytes + (j - i) := by
  induction tree generalizing first last i j with
  | leaf table =>
    obtain ⟨rfl, rfl, -⟩ := h
    exact FlatTable.bytes_part_add_le hf hij hl
  | split pivot left right ihl ihr =>
    obtain ⟨hle, hlt, hcl, hcr⟩ := h
    rw [Decision.part, bytes]
    split
    · next hj =>
      -- the right subtree falls away, with a byte at least for each of its ranges
      have kept := ihl hcl hf hij hj
      have dropped := hcr.length_le_bytes
      omega
    · split
      · next hi =>
        -- the left one does
        have kept := ihr hcr hi hij hl
        have dropped := hcl.length_le_bytes
        omega
      · -- the pivot divides the part, and the comparison stays
        have left_le := ihl hcl hf (by omega) (Nat.le_refl _)
        have right_le := ihr hcr (Nat.le_refl _) (by omega) hl
        rw [bytes]
        omega

end Decision

end RangeLookup
