import RangeLookup.Checked.Cost
import RangeLookup.Proofs.CostTable.Feasible
import RangeLookup.Proofs.Listing.Failure
import RangeLookup.Proofs.Packing.Bijection

/-!
# The cost of a tree and what is emitted

The cost of a tree as an account of what it is emitted as. Its size is the packed data of its
tables, four bytes for each table that needs a base and eight for each comparison, and its depth is
the height of the tree (`Decision.Accounts`). A table takes up its bytes because a layout packs
every entry into as many bytes as its format says, and the tree adds them up.

The account is exact because nothing saturates: a range takes at most twenty bytes, so sizes stay below
the greatest word as long as twenty bytes a range do. With checked operations in place of the
saturating ones the same costs come out, in a tree (`treeCost_eq`) and in each cell of a table for
the ranges.
-/

namespace RangeLookup

theorem toNat_saturate_of_lt {n : Nat} (h : n < 4294967296) : (saturate n).toNat = n := by
  rw [toNat_saturate]
  omega

namespace Exact

open Checked

section Word

variable {a b : UInt32} {n : Nat}

theorem wordOf_eq_saturate (h : n < 4294967296) : wordOf n = pure (saturate n) := by
  rw [wordOf_eq h, saturate, Nat.min_eq_left (by omega)]

theorem addWord_eq_saturate (h : a.toNat + b.toNat < 4294967296) :
    addWord a b = pure (saturate (a.toNat + b.toNat)) := by
  have sum : a + b = saturate (a.toNat + b.toNat) := by
    rw [← UInt32.toNat_inj, toNat_saturate_of_lt h, UInt32.toNat_add, Nat.mod_eq_of_lt h]
  rw [addWord_eq h, sum]

theorem mulWord_eq_saturate (h : a.toNat * b.toNat < 4294967296) :
    mulWord a b = pure (saturate (a.toNat * b.toNat)) := by
  have product : a * b = saturate (a.toNat * b.toNat) := by
    rw [← UInt32.toNat_inj, toNat_saturate_of_lt h, UInt32.toNat_mul, Nat.mod_eq_of_lt h]
  rw [mulWord, if_pos h, product]

end Word

section Cost

variable {s : RangeStore} {t : FlatTable} {a b : Cost} {tree : Decision} {first last : Nat}

/-- The entries of a table are a word if its bytes are. -/
theorem tableBytes_eq (h : t.bytes < 4294967296) : tableBytes t = pure (saturate t.bytes) := by
  have size_pos := t.format.entrySize_pos
  have size_le := t.format.entrySize_le
  have count_le := Nat.le_mul_of_pos_left t.count size_pos
  unfold FlatTable.bytes at h ⊢
  have size := toNat_saturate_of_lt (n := t.format.entrySize) (by omega)
  have count := toNat_saturate_of_lt (n := t.count) (by omega)
  have entries := toNat_saturate_of_lt (n := t.format.entrySize * t.count) (by omega)
  rw [tableBytes, wordOf_eq_saturate (by omega), wordOf_eq_saturate (by omega), pure_bind, pure_bind,
    mulWord_eq_saturate (by rw [size, count]; omega), pure_bind, size, count]
  by_cases raw : t.format.isRaw = true
  · rw [if_pos raw, if_pos raw, Nat.add_zero]
  · rw [if_neg raw] at h ⊢
    have base : (saturate Cost.baseSize).toNat = Cost.baseSize := rfl
    rw [wordOf_eq_saturate (by decide), pure_bind, addWord_eq_saturate (by rw [entries, base]; exact h),
      entries, base, if_neg raw]

theorem tableCost_eq (h : t.bytes < 4294967296) : tableCost s t = pure (t.cost s) := by
  unfold tableCost FlatTable.cost
  split
  · rw [tableBytes_eq h]
    rfl
  · rfl

/-- A comparison costs what it does without checks if its size and its depth are words. -/
theorem splitCost_eq (h : a ≠ Cost.infinite → b ≠ Cost.infinite →
    Cost.splitSize + a.size.toNat + b.size.toNat < 4294967296 ∧
      max a.depth.toNat b.depth.toNat + 1 < 4294967296) :
    splitCost a b = pure (Cost.split a b) := by
  unfold splitCost Cost.split
  split
  · next finite =>
    rw [Bool.and_eq_true, Cost.isFinite_iff, Cost.isFinite_iff] at finite
    obtain ⟨size, depth⟩ := h finite.1 finite.2
    have split : (saturate Cost.splitSize).toNat = Cost.splitSize := rfl
    have left := toNat_saturate_of_lt (n := Cost.splitSize + a.size.toNat) (by omega)
    have one : (1 : UInt32).toNat = 1 := rfl
    rw [wordOf_eq_saturate (by decide), pure_bind, addWord_eq_saturate (by rw [split]; omega), split,
      pure_bind, addWord_eq_saturate (by rw [left]; exact size), left, pure_bind,
      addWord_eq_saturate (by rw [toNat_max, one]; exact depth), toNat_max, one]
    rfl
  · rfl

/-- Nothing saturates in the cost of a tree over as many ranges as make a word of twenty bytes
each. -/
theorem treeCost_eq (hc : tree.Covers first last) (hb : 20 * (last + 1 - first) ≤ 4294967296) :
    treeCost s tree = pure (tree.cost s) := by
  induction tree generalizing first last with
  | leaf table =>
    obtain ⟨rfl, rfl, hle⟩ := hc
    have bytes := table.bytes_le
    unfold FlatTable.count at bytes
    exact tableCost_eq (by omega)
  | split pivot left right ihl ihr =>
    obtain ⟨hle, hlt, hcl, hcr⟩ := hc
    rw [treeCost, ihl hcl (by omega), pure_bind, ihr hcr (by omega), pure_bind]
    apply splitCost_eq
    intro hl hr
    have left_size := Decision.size_cost_le hcl hl
    have right_size := Decision.size_cost_le hcr hr
    have left_depth := (Decision.depth_cost_le hl).trans hcl.height_le
    have right_depth := (Decision.depth_cost_le hr).trans hcr.height_le
    unfold Cost.splitSize at *
    constructor <;> omega

end Cost

end Exact

namespace FlatTable

variable {s : RangeStore} {t : FlatTable}

/-- The table needs a base for its offsets. -/
def needsBase (t : FlatTable) : Bool := t.format.base.bits < 32

theorem bytes_eq (t : FlatTable) :
    t.bytes = t.format.entrySize * t.count + if t.needsBase then Cost.baseSize else 0 := by
  have raw : t.format.isRaw = !t.needsBase := by
    have le := t.format.base.le_thirtyTwo
    rw [Bool.eq_iff_iff, Format.isRaw, needsBase]
    simp only [beq_iff_eq, Bool.not_eq_true', decide_eq_false_iff_not]
    omega
  rw [bytes, raw]
  cases t.needsBase <;> rfl

/-- The entries of the table have packed data, and the bytes of the table are those of the data and of
the base it needs. -/
def Accounts (s : RangeStore) (t : FlatTable) : Prop :=
  ∃ data, pack t.format (t.entries s) = .ok data ∧
    t.bytes = data.length + if t.needsBase then Cost.baseSize else 0

/-- A table that exists, in a format with a byte layout, takes up what its entries pack into. -/
theorem accounts (hle : t.first ≤ t.last) (hl : t.last < s.size)
    (finite : (t.cost s).isFinite = true) (packable : t.format.Packable) : t.Accounts s := by
  obtain ⟨l, format⟩ := Layout.packable_iff.1 packable
  have fits := (feasible_iff_fits hle hl).1 (cost_ne_infinite_iff.1 (Cost.isFinite_iff.1 finite))
  refine ⟨(t.entries s).flatMap l.bytesOf, ?_, ?_⟩
  · exact (Layout.pack_eq_ok_iff (Layout.ofFormat_eq_ok_iff.2 format)).2 ⟨fits, rfl⟩
  · rw [bytes_eq, Layout.length_flatMap_bytesOf, length_entries hle hl, format, Nat.mul_comm]

end FlatTable

namespace Decision

variable {s : RangeStore} {tree : Decision} {first last : Nat}

/-- The packed data of the tables of a tree, from left to right. -/
def pack (s : RangeStore) (tree : Decision) : Except Error (List Bytes) :=
  tree.leaves.mapM fun t => RangeLookup.pack t.format (t.entries s)

/-- The cost is what the tree is emitted as: comparisons, packed data and bases in its size, and in its
depth the most comparisons on the way to a table. -/
structure Accounts (s : RangeStore) (tree : Decision) (c : Cost) : Prop where
  size : ∃ data, tree.pack s = .ok data ∧
    c.size.toNat = 8 * tree.splits + (data.map List.length).sum +
      4 * tree.leaves.countP FlatTable.needsBase
  depth : c.depth.toNat = tree.height

theorem bytes_eq_sum (tree : Decision) :
    tree.bytes = 8 * tree.splits + (tree.leaves.map FlatTable.bytes).sum := by
  induction tree with
  | leaf table => simp [bytes, splits]
  | split pivot left right ihl ihr =>
    rw [bytes, splits, leaves_split, List.map_append, List.sum_append, ihl, ihr, Cost.splitSize]
    omega

/-- Tables one after the other take up their packed data and their bases. -/
theorem exists_mapM_pack {tables : List FlatTable}
    (h : ∀ t ∈ tables, FlatTable.Accounts s t) :
    ∃ data, tables.mapM (fun t => RangeLookup.pack t.format (t.entries s)) = .ok data ∧
      (tables.map FlatTable.bytes).sum =
        (data.map List.length).sum + 4 * tables.countP FlatTable.needsBase := by
  induction tables with
  | nil => exact ⟨[], rfl, rfl⟩
  | cons t rest ih =>
    rw [List.forall_mem_cons] at h
    obtain ⟨⟨own, packed, bytes⟩, tail⟩ := h
    obtain ⟨others, all, sum⟩ := ih tail
    refine ⟨own :: others, ?_, ?_⟩
    · rw [List.mapM_cons, packed, all]
      rfl
    · rw [List.map_cons, List.map_cons, List.sum_cons, List.sum_cons, List.countP_cons, bytes, sum,
        Cost.baseSize]
      split <;> omega

theorem accounts_cost (hc : tree.Covers first last) (hl : last < s.size)
    (hb : 20 * (last + 1 - first) ≤ 4294967296)
    (h : ∀ t ∈ tree.leaves, (t.cost s).isFinite = true ∧ t.format.Packable) :
    tree.Accounts s (tree.cost s) := by
  have tables : ∀ t ∈ tree.leaves, t.Accounts s := by
    intro t ht
    obtain ⟨-, hle, hlt⟩ := hc.tiles.bounds ht
    exact FlatTable.accounts hle (by omega) (h t ht).1 (h t ht).2
  have finite : tree.cost s ≠ Cost.infinite :=
    cost_ne_infinite hc (by omega) fun t ht => Cost.isFinite_iff.1 (h t ht).1
  constructor
  · obtain ⟨data, packed, sum⟩ := exists_mapM_pack tables
    refine ⟨data, packed, ?_⟩
    -- The bytes of the tree are its cost: they are below the word at which a cost stops.
    have size := size_cost_eq_min_bytes finite
    have bound := size_cost_le hc finite
    unfold Cost.splitSize at bound
    rw [Nat.add_assoc, ← sum, ← bytes_eq_sum]
    omega
  · exact depth_cost_eq hc (by omega) finite

end Decision

namespace CostTable

variable {s : RangeStore} {catalog : Catalog} {t : CostTable} {first pivot last : Nat}

/-- A finite cell costs no more than twenty bytes a range, with a comparison to spare. -/
theorem size_cost_le (ht : optimize s catalog = .ok t) (hle : first ≤ last) (hl : last < s.size)
    (hfin : t.cost first last ≠ Cost.infinite) :
    (t.cost first last).size.toNat + Cost.splitSize ≤ 20 * (last + 1 - first) := by
  obtain ⟨tree, hc⟩ := exists_chooses ht hle hl hfin
  rw [← hc.cost_of_optimize ht] at hfin ⊢
  exact Decision.size_cost_le (hc.covers hle) hfin

/-- Nothing saturates in the candidates for a cell. -/
theorem splitCost_exact (ht : optimize s catalog = .ok t) (hs : 20 * s.size ≤ 4294967296)
    (hle : first ≤ pivot) (hlt : pivot < last) (hl : last < s.size) :
    Exact.splitCost (t.cost first pivot) (t.cost (pivot + 1) last) =
      pure (t.splitCost first pivot last) := by
  apply Exact.splitCost_eq
  intro hfl hfr
  have next : pivot + 1 ≤ last := hlt
  have left_size := size_cost_le ht hle (by omega) hfl
  have right_size := size_cost_le ht next hl hfr
  have left_depth := depth_cost_le ht hle (by omega) hfl
  have right_depth := depth_cost_le ht next hl hfr
  unfold Cost.splitSize at *
  constructor <;> omega

theorem tableCost_exact (ht : optimize s catalog = .ok t) (hs : 20 * s.size ≤ 4294967296)
    (f : Format) (hle : first ≤ last) (hl : last < s.size) :
    Exact.tableCost s ⟨f, first, last⟩ = pure (t.tableCost f first last) := by
  have bytes := (FlatTable.mk f first last).bytes_le
  have count : (FlatTable.mk f first last).count = last - first + 1 := rfl
  rw [tableCost, (filled_optimize ht).store]
  exact Exact.tableCost_eq (by omega)

/-- Costs are an exact account of what is emitted, as long as twenty bytes a range make a word. The
cost of a tree of tables that exist and have a byte layout is eight bytes a comparison, the packed data
of its tables and four bytes for each table that needs a base, and as many comparisons as the tree is
high; the same holds of the total and the tree that is found. No operation saturates: the cost of a
tree, and of every table and every split that is tried for a cell, comes out the same with checked
operations. -/
theorem cost_accounts (s : RangeStore) (hs : 20 * s.size ≤ 4294967296) :
    (∀ (tree : Decision) first last, tree.Covers first last → last < s.size →
      (∀ t ∈ tree.leaves, (t.cost s).isFinite = true ∧ t.format.Packable) →
      tree.Accounts s (tree.cost s) ∧ Exact.treeCost s tree = pure (tree.cost s)) ∧
    (0 < s.size → ∀ catalog, ∃ t, optimize s catalog = .ok t ∧
      (∀ f first last, first ≤ last → last < s.size →
        Exact.tableCost s ⟨f, first, last⟩ = pure (t.tableCost f first last)) ∧
      (∀ first pivot last, first ≤ pivot → pivot < last → last < s.size →
        Exact.splitCost (t.cost first pivot) (t.cost (pivot + 1) last) =
          pure (t.splitCost first pivot last)) ∧
      (t.total.isFinite = true → ∃ tree, t.tree = .ok tree ∧
        Exact.treeCost s tree = pure t.total ∧
        ((∀ table ∈ tree.leaves, table.format.Packable) → tree.Accounts s t.total))) := by
  constructor
  · intro tree first last hc hl h
    exact ⟨Decision.accounts_cost hc hl (by omega) h, Exact.treeCost_eq hc (by omega)⟩
  · intro hn catalog
    obtain ⟨t, ht⟩ := exists_optimize catalog hn
    refine ⟨t, ht, ?_, ?_, ?_⟩
    · intro f first last hle hl
      exact tableCost_exact ht hs f hle hl
    · intro first pivot last hle hlt hl
      exact splitCost_exact ht hs hle hlt hl
    · intro hfin
      obtain ⟨tree, htree, hc⟩ := exists_tree ht hn hfin
      have covers := hc.covers (Nat.zero_le _)
      rw [← hc.cost_eq_total ht]
      refine ⟨tree, htree, Exact.treeCost_eq covers (by omega), ?_⟩
      intro packable
      apply Decision.accounts_cost covers (by omega) (by omega)
      intro table hm
      exact ⟨(leaves_of_tree ht hn htree table hm).2.2.1, packable table hm⟩

theorem cost_accounts_everyLayout :
    20 * Listing.everyLayout.size ≤ 4294967296 ∧ Listing.everyLayoutTree.Covers 0 5 ∧
      (∀ t ∈ Listing.everyLayoutTree.leaves,
        (t.cost Listing.everyLayout).isFinite = true ∧ t.format.Packable) ∧
      (∃ data, Listing.everyLayoutTree.pack Listing.everyLayout = .ok data ∧
        (Listing.everyLayoutTree.cost Listing.everyLayout).size.toNat =
          8 * 4 + (data.map List.length).sum + 4 * 4) ∧
      (Listing.everyLayoutTree.cost Listing.everyLayout).depth.toNat = 3 ∧
      20 * farApart.size ≤ 4294967296 ∧ 0 < farApart.size ∧
      ∃ t, optimize farApart wordsOnly = .ok t ∧ t.tree = .ok farApartTree ∧
        farApartTree.Accounts farApart t.total := by
  have leaves : ∀ t ∈ Listing.everyLayoutTree.leaves,
      (t.cost Listing.everyLayout).isFinite = true ∧ t.format.Packable := by
    simp only [Listing.everyLayoutTree, Decision.leaves_split, Decision.leaves_leaf]
    decide
  have bases : Listing.everyLayoutTree.leaves.countP FlatTable.needsBase = 4 := by
    simp only [Listing.everyLayoutTree, Decision.leaves_split, Decision.leaves_leaf]
    decide
  have covers : Listing.everyLayoutTree.Covers 0 5 := by decide
  obtain ⟨⟨size, depth⟩, -⟩ := (cost_accounts Listing.everyLayout (by decide)).1 _ 0 5 covers
    (by decide) leaves
  rw [bases] at size
  refine ⟨by decide, covers, leaves, size, depth, by decide, by decide, ?_⟩
  obtain ⟨t, ht, -, -, found⟩ := (cost_accounts farApart (by decide)).2 (by decide) wordsOnly
  obtain ⟨tree, htree, -, accounts⟩ := found (finite_farApart ht)
  cases htree.symm.trans (tree_farApart ht)
  refine ⟨t, ht, htree, accounts ?_⟩
  simp only [farApartTree, Decision.leaves_split, Decision.leaves_leaf]
  decide

end CostTable

end RangeLookup
