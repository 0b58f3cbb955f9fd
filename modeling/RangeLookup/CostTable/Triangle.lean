/-!
# Triangular tables

A cell for every pair of indices `first ≤ last` below a size. Row `first` holds the cells from the
diagonal on. `getD_set` says what setting a cell changes.
-/

namespace RangeLookup

/-- One value for each pair of indices in order. -/
structure Triangle (α : Type) where
  rows : Array (Array α)

namespace Triangle

variable {α : Type}

/-- The table of the given size with the same value everywhere. -/
def replicate (size : Nat) (a : α) : Triangle α :=
  ⟨Array.ofFn fun first : Fin size => Array.replicate (size - first) a⟩

def size (t : Triangle α) : Nat := t.rows.size

/-- The value of a cell, or the given one outside the table. -/
def getD (t : Triangle α) (first last : Nat) (a : α) : α :=
  (t.rows.getD first #[]).getD (last - first) a

/-- The table with a new value in one cell. -/
def set (t : Triangle α) (first last : Nat) (a : α) : Triangle α :=
  ⟨t.rows.modify first fun row => row.setIfInBounds (last - first) a⟩

/-- Every row reaches from the diagonal to the last index. -/
def WellShaped (t : Triangle α) : Prop :=
  ∀ first, (t.rows.getD first #[]).size = t.size - first

@[simp] theorem size_replicate (n : Nat) (a : α) : (replicate n a).size = n := by
  simp [replicate, size]

@[simp] theorem size_set (t : Triangle α) (first last : Nat) (a : α) :
    (t.set first last a).size = t.size := by
  simp [set, size]

theorem row_replicate (n first : Nat) (a : α) :
    (replicate n a).rows.getD first #[] = Array.replicate (n - first) a := by
  by_cases h : first < n
  · simp [replicate, Array.getD, h]
  · simp [replicate, Array.getD, h, Nat.sub_eq_zero_of_le (Nat.le_of_not_lt h)]

theorem wellShaped_replicate (n : Nat) (a : α) : (replicate n a).WellShaped := by
  intro first
  rw [row_replicate]
  simp

theorem row_set (t : Triangle α) (first last row : Nat) (a : α) :
    (t.set first last a).rows.getD row #[] =
      if first = row then (t.rows.getD row #[]).setIfInBounds (last - first) a
      else t.rows.getD row #[] := by
  simp only [set, Array.getD_eq_getD_getElem?, Array.getElem?_modify]
  split
  · cases t.rows[row]? <;> simp
  · rfl

theorem WellShaped.set {t : Triangle α} (h : t.WellShaped) (first last : Nat) (a : α) :
    (t.set first last a).WellShaped := by
  intro row
  rw [row_set, size_set]
  split
  · simpa using h row
  · exact h row

/-- Setting a cell changes that cell and no other. -/
theorem getD_set {t : Triangle α} (h : t.WellShaped) {first last i j : Nat} (hf : first ≤ last)
    (hl : last < t.size) (hi : i ≤ j) (a b : α) :
    (t.set first last a).getD i j b = if first = i ∧ last = j then a else t.getD i j b := by
  simp only [getD, row_set]
  by_cases hr : first = i
  · subst hr
    have hs : last - first < (t.rows.getD first #[]).size := by rw [h first]; omega
    generalize t.rows.getD first #[] = row at hs ⊢
    simp only [if_pos, Array.getD_eq_getD_getElem?, Array.getElem?_setIfInBounds]
    by_cases hc : last = j
    · subst hc
      simp [hs]
    · rw [if_neg (by omega), if_neg (by omega)]
  · rw [if_neg hr, if_neg (fun e => hr e.1)]

end Triangle

end RangeLookup
