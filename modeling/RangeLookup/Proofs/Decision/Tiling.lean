import Mathlib
import RangeLookup.Decision.Shape

/-!
# Cuttings of a run into consecutive tables

The leaves of a tree that covers a run tile it (`Covers.tiles`), and every tiling is the leaf
sequence of some tree. How high that tree is depends only on how many tables there are: no tree over
`m` tables is lower than the binary logarithm of `m`, rounded up (`clog_length_leaves_le`), and
halving the tables reaches it (`exists_balanced`).
-/

namespace RangeLookup

/-- The tables hold the ranges from index `start` to before index `stop`, each taking up where the
one before it ends, and none is empty. -/
def Tiles : List FlatTable → Nat → Nat → Prop
  | [], start, stop => start = stop
  | t :: rest, start, stop => t.first = start ∧ start ≤ t.last ∧ Tiles rest (t.last + 1) stop

instance decidableTiles : (tables : List FlatTable) → (start stop : Nat) →
    Decidable (Tiles tables start stop)
  | [], _, _ => inferInstanceAs (Decidable (_ = _))
  | t :: rest, _, stop =>
    have := decidableTiles rest (t.last + 1) stop
    inferInstanceAs (Decidable (_ ∧ _))

theorem tiles_append {front back : List FlatTable} {start stop : Nat} :
    Tiles (front ++ back) start stop ↔ ∃ middle, Tiles front start middle ∧ Tiles back middle stop := by
  induction front generalizing start with
  | nil => simp [Tiles]
  | cons t front ih => simp [Tiles, ih, and_assoc]

theorem Tiles.le {tables : List FlatTable} {start stop : Nat} (h : Tiles tables start stop) :
    start + tables.length ≤ stop := by
  induction tables generalizing start with
  | nil => exact Nat.le_of_eq h
  | cons t rest ih =>
    obtain ⟨-, hle, hrest⟩ := h
    have rest_le := ih hrest
    rw [List.length_cons]
    omega

/-- A table of a cutting is not empty and lies within the run. -/
theorem Tiles.bounds {tables : List FlatTable} {start stop : Nat} {t : FlatTable}
    (h : Tiles tables start stop) (ht : t ∈ tables) :
    start ≤ t.first ∧ t.first ≤ t.last ∧ t.last < stop := by
  induction tables generalizing start with
  | nil => cases ht
  | cons head rest ih =>
    obtain ⟨rfl, hle, hrest⟩ := h
    have tail := hrest.le
    rcases List.mem_cons.1 ht with rfl | ht
    · exact ⟨Nat.le_refl _, hle, by omega⟩
    · obtain ⟨hf, hl, hs⟩ := ih hrest ht
      exact ⟨by omega, hl, hs⟩

/-- No table before another begins at the same range. -/
theorem Tiles.first_ne {front back : List FlatTable} {start stop : Nat} {t : FlatTable}
    (h : Tiles (front ++ t :: back) start stop) : ∀ u ∈ front, u.first ≠ t.first := by
  obtain ⟨middle, hfront, rfl, -⟩ := tiles_append.1 h
  intro u hu
  obtain ⟨-, hle, hlt⟩ := hfront.bounds hu
  omega

namespace Decision

theorem Covers.tiles {tree : Decision} {first last : Nat} (h : tree.Covers first last) :
    Tiles tree.leaves first (last + 1) := by
  induction tree generalizing first last with
  | leaf table =>
    obtain ⟨rfl, rfl, hle⟩ := h
    rw [leaves_leaf]
    exact ⟨rfl, hle, rfl⟩
  | split pivot left right ihl ihr =>
    rw [leaves_split, tiles_append]
    exact ⟨pivot + 1, ihl h.2.2.1, ihr h.2.2.2⟩

/-- The tables of a tree for the first `n` ranges tile all of them. -/
theorem Covers.tiles_all {tree : Decision} {n : Nat} (h : tree.Covers 0 (n - 1)) (hn : 0 < n) :
    Tiles tree.leaves 0 n := by
  have tiles := h.tiles
  rw [Nat.sub_add_cancel hn] at tiles
  exact tiles

theorem length_leaves_le (tree : Decision) : tree.leaves.length ≤ 2 ^ tree.height := by
  induction tree with
  | leaf table => simp [height]
  | split pivot left right ihl ihr =>
    have left_le : 2 ^ left.height ≤ 2 ^ max left.height right.height :=
      Nat.pow_le_pow_right Nat.two_pos (Nat.le_max_left _ _)
    have right_le : 2 ^ right.height ≤ 2 ^ max left.height right.height :=
      Nat.pow_le_pow_right Nat.two_pos (Nat.le_max_right _ _)
    rw [leaves_split, List.length_append, height, pow_succ]
    omega

/-- A tree over so many tables needs so many levels. -/
theorem clog_length_leaves_le (tree : Decision) : Nat.clog 2 tree.leaves.length ≤ tree.height :=
  Nat.clog_le_of_le_pow tree.length_leaves_le

/-- Tables that tile a run are the leaves of a tree for it that is as low as can be: the halves of
the sequence go to the two sides of a split. -/
theorem exists_balanced {tables : List FlatTable} {first last : Nat}
    (h : Tiles tables first (last + 1)) (hne : 0 < tables.length) :
    ∃ tree : Decision, tree.Covers first last ∧ tree.leaves = tables ∧
      tree.height = Nat.clog 2 tables.length := by
  induction hm : tables.length using Nat.strong_induction_on generalizing tables first last with
  | _ m ih =>
    subst hm
    by_cases hone : tables.length = 1
    · obtain ⟨t, rfl⟩ := List.length_eq_one_iff.1 hone
      obtain ⟨hf, hle, hl⟩ := h
      obtain rfl : t.last = last := Nat.succ.inj hl
      refine ⟨leaf t, ⟨hf, rfl, hle⟩, leaves_leaf t, ?_⟩
      rw [hone, Nat.clog_one_right, height]
    · have lengths : (tables.take ((tables.length + 1) / 2)).length = (tables.length + 1) / 2 ∧
          (tables.drop ((tables.length + 1) / 2)).length = tables.length / 2 := by
        rw [List.length_take, List.length_drop]
        omega
      rw [← List.take_append_drop ((tables.length + 1) / 2) tables, tiles_append] at h
      obtain ⟨middle, hfront, hback⟩ := h
      -- neither half is empty, so the cut lies inside the run and there is a range before it
      have front_le := hfront.le
      have back_le := hback.le
      obtain ⟨pivot, rfl⟩ : ∃ pivot, middle = pivot + 1 := ⟨middle - 1, by omega⟩
      obtain ⟨left, hlc, hll, hlh⟩ := ih _ (by omega) hfront (by omega) rfl
      obtain ⟨right, hrc, hrl, hrh⟩ := ih _ (by omega) hback (by omega) rfl
      refine ⟨split pivot left right, ⟨by omega, by omega, hlc, hrc⟩, ?_, ?_⟩
      · rw [leaves_split, hll, hrl, List.take_append_drop]
      · have more : Nat.clog 2 tables.length = Nat.clog 2 ((tables.length + 1) / 2) + 1 :=
          Nat.clog_of_two_le one_lt_two (by omega)
        have larger : Nat.clog 2 (tables.length / 2) ≤ Nat.clog 2 ((tables.length + 1) / 2) :=
          Nat.clog_mono_right 2 (by omega)
        rw [height, hlh, hrh, lengths.1, lengths.2, Nat.max_eq_left larger, more]

end Decision

end RangeLookup
