import RangeLookup.Proofs.Listing.Recovery
import RangeLookup.Proofs.Listing.Symbolic.Characters

/-!
# No two trees have the same symbolic listing

A numeral ends where no digit follows (`Radix.write_append_inj`), so the pieces that a node is
written from can be told one after the other from the front of a text, whatever comes behind them
(`plain_append_inj`). The indices of a table are not written. They follow from where the run begins
and from how many entries the table has, and its ranges follow from its base and its entries.
-/

namespace RangeLookup

namespace Radix

variable {r : Radix} {m n : Nat} {a b : List Char} {c : Char}

/-- A numeral of the radix ends before the text. -/
def Ends (r : Radix) (text : List Char) : Prop := ∀ c ∈ text.head?, r.isDigit c = false

theorem ends_cons (h : r.isDigit c = false) (text : List Char) : r.Ends (c :: text) := by
  intro c' hc
  rwa [Option.mem_some_iff.1 hc] at h

theorem takeWhile_write_append (h : r.Ends a) :
    (r.write n ++ a).takeWhile r.isDigit = r.write n := by
  have digits : ∀ c ∈ r.write n, r.isDigit c = true := fun c hc => isDigit_of_mem_write hc
  rw [List.takeWhile_append_of_pos digits]
  cases a with
  | nil => simp
  | cons c rest => rw [List.takeWhile_cons_of_neg (by simp [h c rfl]), List.append_nil]

/-- A numeral can be told from the text that follows it. -/
theorem write_append_inj (ha : r.Ends a) (hb : r.Ends b) (h : r.write m ++ a = r.write n ++ b) :
    m = n ∧ a = b := by
  have digits := congrArg (List.takeWhile r.isDigit) h
  rw [takeWhile_write_append ha, takeWhile_write_append hb] at digits
  obtain rfl := r.write_injective digits
  exact ⟨rfl, List.append_cancel_left h⟩

end Radix

theorem Entry.ext {d e : Entry} (ho : d.offset = e.offset) (hs : d.span = e.span) : d = e := by
  cases d; cases e
  cases ho; cases hs
  rfl

theorem decimal_append_inj {m n : Nat} {a b : List Char} {c : Char}
    (hc : Radix.decimal.isDigit c = false)
    (h : (decimal m).toList ++ c :: a = (decimal n).toList ++ c :: b) : m = n ∧ a = b := by
  rw [decimal, decimal, String.toList_ofList, String.toList_ofList] at h
  obtain ⟨same, rest⟩ := Radix.write_append_inj (Radix.ends_cons hc a) (Radix.ends_cons hc b) h
  exact ⟨same, List.tail_eq_of_cons_eq rest⟩

theorem hexadecimal_append_inj {m n : Nat} {a b : List Char} (ha : Radix.hexadecimal.Ends a)
    (hb : Radix.hexadecimal.Ends b)
    (h : (hexadecimal m).toList ++ a = (hexadecimal n).toList ++ b) : m = n ∧ a = b := by
  rw [hexadecimal, hexadecimal, String.toList_ofList, String.toList_ofList] at h
  exact Radix.write_append_inj ha hb h

namespace Listing.Symbolic

variable {s s' : RangeStore} {a b : List Char}

/-- Entries can be told from the text that follows the parenthesis behind them. -/
theorem entries_append_inj {es es' : List Entry}
    (h : es.flatMap entryText ++ ')' :: a = es'.flatMap entryText ++ ')' :: b) :
    es = es' ∧ a = b := by
  induction es generalizing es' with
  | nil =>
    cases es' with
    | nil => exact ⟨rfl, List.tail_eq_of_cons_eq h⟩
    | cons e' rest' => cases (List.cons.inj h).1
  | cons e rest ih =>
    cases es' with
    | nil => cases (List.cons.inj h).1
    | cons e' rest' =>
      simp only [List.flatMap_cons, entryText, List.cons_append, List.append_assoc,
        List.cons.injEq, true_and, List.nil_append] at h
      obtain ⟨offset, h⟩ := decimal_append_inj (by decide) h
      obtain ⟨span, h⟩ := decimal_append_inj (by decide) h
      obtain ⟨rfl, same⟩ := ih h
      have entry : e = e' := Entry.ext (UInt32.toNat_inj.1 offset) (UInt32.toNat_inj.1 span)
      exact ⟨by rw [entry], same⟩

theorem ends_entries (es : List Entry) (rest : List Char) :
    Radix.hexadecimal.Ends (es.flatMap entryText ++ ')' :: rest) := by
  cases es with
  | nil => exact Radix.ends_cons (by decide) _
  | cons e es => exact Radix.ends_cons (by decide) _

/-- Tables that begin at the same index and are written alike hold the same ranges, in the same
format. -/
theorem leaf_append_inj {t t' : FlatTable} {depth : Nat} (first : t.first = t'.first)
    (hle : t.first ≤ t.last) (hle' : t'.first ≤ t'.last) (hl : t.last < s.size)
    (hl' : t'.last < s'.size)
    (h : (plain s depth (.leaf t)).toList ++ a = (plain s' depth (.leaf t')).toList ++ b) :
    t = t' ∧ (∀ k, t.first ≤ k → k ≤ t.last → s.get k = s'.get k) ∧ a = b := by
  rw [toList_leaf_append, toList_leaf_append] at h
  replace h := List.append_cancel_left (List.append_cancel_left h)
  obtain ⟨base_bits, h⟩ := decimal_append_inj (by decide) h
  obtain ⟨span_bits, h⟩ := decimal_append_inj (by decide) h
  simp only [List.cons.injEq, true_and] at h
  obtain ⟨base, h⟩ := hexadecimal_append_inj (ends_entries _ _) (ends_entries _ _) h
  obtain ⟨entries, rest⟩ := entries_append_inj h
  have last : t.last = t'.last := by
    have count := congrArg List.length entries
    rw [FlatTable.length_entries hle hl, FlatTable.length_entries hle' hl'] at count
    unfold FlatTable.count at count
    omega
  have table : t = t' := by
    have format : t.format = t'.format := Format.ext base_bits span_bits
    cases t
    cases t'
    simp only [FlatTable.mk.injEq]
    exact ⟨format, first, last⟩
  subst table
  refine ⟨rfl, ?_, rest⟩
  have ranges : s.slice t.first t.last = s'.slice t.first t.last := by
    rw [← t.map_rangeFrom_entries s, ← t.map_rangeFrom_entries s', entries, UInt32.toNat_inj.1 base]
  rw [RangeStore.slice_eq_map_get hl, RangeStore.slice_eq_map_get hl', List.map_inj_left] at ranges
  intro k hf hk
  exact ranges k (List.mem_range'_1.2 ⟨hf, by omega⟩)

/-- What follows a split and the text behind it can be told from each other, part by part. -/
theorem split_append_inj {pivot pivot' depth : Nat} {left left' right right' : Decision}
    (h : (plain s depth (.split pivot left right)).toList ++ a =
      (plain s' depth (.split pivot' left' right')).toList ++ b) :
    pivot = pivot' ∧ right.last = right'.last ∧
      (plain s (depth + 1) left).toList ++ '\n' ::
          ((plain s (depth + 1) right).toList ++ ')' :: a) =
        (plain s' (depth + 1) left').toList ++ '\n' ::
          ((plain s' (depth + 1) right').toList ++ ')' :: b) := by
  rw [toList_split_append, toList_split_append] at h
  replace h := List.append_cancel_left (List.append_cancel_left h)
  obtain ⟨-, h⟩ := hexadecimal_append_inj (Radix.ends_cons (by decide) _)
    (Radix.ends_cons (by decide) _) h
  simp only [List.cons.injEq, true_and] at h
  obtain ⟨-, h⟩ := decimal_append_inj (by decide) h
  obtain ⟨pivot, h⟩ := decimal_append_inj (by decide) h
  obtain ⟨last, h⟩ := decimal_append_inj (by decide) h
  exact ⟨pivot, last, h⟩

/-- A table is not written like a split. -/
theorem leaf_append_ne_split {t : FlatTable} {pivot depth : Nat} {left right : Decision} :
    (plain s depth (.leaf t)).toList ++ a ≠
      (plain s' depth (.split pivot left right)).toList ++ b := by
  intro h
  rw [toList_leaf_append, toList_split_append] at h
  replace h := List.append_cancel_left h
  have second := congrArg (·[1]?) h
  simp at second

/-- Trees for runs that begin at the same index, written alike in front of any text, are the same
tree for the same ranges. -/
theorem plain_append_inj {tree tree' : Decision} {depth first last last' : Nat}
    (hc : tree.Covers first last) (hc' : tree'.Covers first last') (hl : last < s.size)
    (hl' : last' < s'.size)
    (h : (plain s depth tree).toList ++ a = (plain s' depth tree').toList ++ b) :
    tree = tree' ∧ last = last' ∧ (∀ k, first ≤ k → k ≤ last → s.get k = s'.get k) ∧ a = b := by
  induction tree generalizing tree' depth first last last' a b with
  | leaf t =>
    cases tree' with
    | leaf t' =>
      obtain ⟨rfl, rfl, hle⟩ := hc
      obtain ⟨first, rfl, hle'⟩ := hc'
      obtain ⟨rfl, ranges, rest⟩ := leaf_append_inj first.symm hle (by omega) hl hl' h
      exact ⟨rfl, rfl, ranges, rest⟩
    | split pivot' left' right' => exact absurd h leaf_append_ne_split
  | split pivot left right ihl ihr =>
    cases tree' with
    | leaf t' => exact absurd h.symm leaf_append_ne_split
    | split pivot' left' right' =>
      obtain ⟨hle, hlt, hcl, hcr⟩ := hc
      obtain ⟨hle', hlt', hcl', hcr'⟩ := hc'
      obtain ⟨rfl, last, sides⟩ := split_append_inj h
      rw [hcr.last_eq, hcr'.last_eq] at last
      obtain ⟨rfl, -, ranges_left, behind⟩ := ihl hcl hcl' (by omega) (by omega) sides
      obtain ⟨rfl, -, ranges_right, rest⟩ :=
        ihr hcr hcr' hl hl' (List.tail_eq_of_cons_eq behind)
      refine ⟨rfl, last, ?_, List.tail_eq_of_cons_eq rest⟩
      intro k hf hk
      rcases Nat.lt_or_ge pivot k with hright | hleft
      · exact ranges_right k hright hk
      · exact ranges_left k hf hleft

end Symbolic

/-- The symbolic listing tells the tree and the ranges: listings of trees for all ranges of their
stores are the same text only if the stores are the same and the trees are the same. -/
theorem symbolic_eq_iff {s s' : RangeStore} {tree tree' : Decision} (hs : 0 < s.size)
    (hs' : 0 < s'.size) (hc : tree.Covers 0 (s.size - 1)) (hc' : tree'.Covers 0 (s'.size - 1)) :
    symbolic s tree = symbolic s' tree' ↔ s = s' ∧ tree = tree' := by
  constructor
  · intro h
    have text := congrArg String.toList h
    rw [Symbolic.toList_symbolic, Symbolic.toList_symbolic] at text
    obtain ⟨rfl, last, ranges, -⟩ :=
      Symbolic.plain_append_inj hc hc' (by omega) (by omega) text
    refine ⟨RangeStore.ext ?_, rfl⟩
    have size : s.size = s'.size := by omega
    rw [RangeStore.toList_eq_map_get, RangeStore.toList_eq_map_get, ← size, List.map_inj_left]
    intro k hk
    have bound := List.mem_range.1 hk
    exact ranges k (Nat.zero_le k) (by omega)
  · rintro ⟨rfl, rfl⟩
    rfl

/-- The leaves of `everyLayoutTree`, nested in another way. -/
def everyLayoutChain : Decision :=
  .split 0 (.leaf ⟨(Layout.uniform .byte).format, 0, 0⟩)
    (.split 1 (.leaf ⟨(Layout.uniform .word).format, 1, 1⟩)
      (.split 2 (.leaf ⟨Layout.twelve.format, 2, 2⟩)
        (.split 4 (.leaf ⟨Layout.tenSix.format, 3, 4⟩)
          (.leaf ⟨(Layout.uniform .doubleWord).format, 5, 5⟩))))

theorem symbolic_ne_everyLayoutChain :
    0 < everyLayout.size ∧ everyLayoutTree.Covers 0 5 ∧ everyLayoutChain.Covers 0 5 ∧
      everyLayoutChain.leaves = everyLayoutTree.leaves ∧
      symbolic everyLayout everyLayoutTree ≠ symbolic everyLayout everyLayoutChain := by
  have tree : everyLayoutTree.Covers 0 5 := by decide
  have chain : everyLayoutChain.Covers 0 5 := by decide
  have same_leaves : everyLayoutChain.leaves = everyLayoutTree.leaves := by
    simp only [everyLayoutTree, everyLayoutChain, Decision.leaves_split, Decision.leaves_leaf]
    rfl
  refine ⟨by decide, tree, chain, same_leaves, ?_⟩
  intro same
  have both := (symbolic_eq_iff (by decide) (by decide) tree chain).1 same
  exact absurd both.2 (by decide)

end Listing

end RangeLookup
