import Mathlib
import RangeLookup.Checked.Listing
import RangeLookup.Proofs.Checked.CostTable
import RangeLookup.Proofs.Decision.Tiling
import RangeLookup.Proofs.Listing.Sections

/-!
# Listings without a fault

Trees that cover the ranges of a store are listed without a fault. Every index in such a tree is
that of a range, and its tables are runs, so their entries have no offset below zero. What is put
together in a word has room for both halves once they were found to fit their fields. A node is
indented by its depth, so the height of the tree bounds the width.
-/

namespace RangeLookup

namespace Checked

open Listing

/-- A number and one moved up past it are put together without a carry. -/
theorem toNat_or_shiftLeft {low high k : UInt32} (hk : k < 32)
    (hl : low.toNat < Nat.pow 2 k.toNat) (hh : high.toNat * Nat.pow 2 k.toNat < 4294967296) :
    (low ||| high <<< k).toNat = low.toNat + high.toNat * Nat.pow 2 k.toNat := by
  have bits : k.toNat < 32 := UInt32.lt_iff_toNat_lt.1 hk
  have moved : (high <<< k).toNat = 2 ^ k.toNat * high.toNat := by
    rw [UInt32.toNat_shiftLeft, Nat.mod_eq_of_lt bits, Nat.shiftLeft_eq, Nat.mul_comm (2 ^ _)]
    exact Nat.mod_eq_of_lt hh
  rw [UInt32.toNat_or, moved, Nat.or_comm, ← Nat.two_pow_add_eq_or_of_lt hl, Nat.add_comm,
    Nat.mul_comm]
  rfl

section Directives

variable {l : Layout} {e : Entry}

theorem check_eq (e : Entry) (f : Format) : check e f = plain (e.check f) := by
  unfold check Entry.check
  simp only [holds_eq, pure_bind]
  cases f.base.holds e.offset <;> cases f.span.holds e.span <;> rfl

theorem byteOf_of_toNat {v : UInt32} {n : Nat} (hv : v.toNat = n) (hn : n < 256) :
    byteOf v = pure (UInt8.ofNat n) := by
  have byte : v < 256 := by
    rw [UInt32.lt_iff_toNat_lt, hv]
    exact hn
  rw [byteOf_eq byte]
  apply congrArg pure
  rw [← UInt8.toNat_inj, UInt32.toNat_toUInt8, hv, UInt8.toNat_ofNat']

theorem halfOf_of_toNat {v : UInt32} {n : Nat} (hv : v.toNat = n) (hn : n < 65536) :
    halfOf v = pure (UInt16.ofNat n) := by
  have half : v < 65536 := by
    rw [UInt32.lt_iff_toNat_lt, hv]
    exact hn
  rw [halfOf_eq half]
  apply congrArg pure
  rw [← UInt16.toNat_inj, UInt32.toNat_toUInt16, hv, UInt16.toNat_ofNat']

theorem byteOf_and (v : UInt32) : byteOf (v &&& 0xFF) = pure (UInt8.ofNat (v.toNat % 256)) := by
  apply byteOf_of_toNat _ (Nat.mod_lt _ (by decide))
  rw [UInt32.toNat_and]
  exact Nat.and_two_pow_sub_one_eq_mod _ 8

theorem toNat_shiftRight_byte (v : UInt32) : (v >>> 8).toNat = v.toNat / 256 := by
  rw [UInt32.toNat_shiftRight, Nat.shiftRight_eq_div_pow]
  rfl

/-- The three bytes of an entry that fits lose nothing. -/
theorem directive_twelve (h : e.Fits Layout.twelve.format) :
    directive .twelve e = pure (Layout.twelve.directiveOf e) := by
  have offset : e.offset.toNat < 4096 := Width.holds_iff.1 h.1
  have span : e.span.toNat < 4096 := Width.holds_iff.1 h.2
  have low := toNat_shiftRight_byte e.offset
  have high := toNat_shiftRight_byte e.span
  have room : (e.span >>> 8).toNat * Nat.pow 2 (4 : UInt32).toNat < 4294967296 := by
    show (e.span >>> 8).toNat * 16 < 4294967296
    omega
  have below : (e.offset >>> 8).toNat < Nat.pow 2 (4 : UInt32).toNat := by
    show (e.offset >>> 8).toNat < 16
    omega
  have both : (e.offset >>> 8 ||| (e.span >>> 8) <<< 4).toNat =
      e.offset.toNat / 256 + 16 * (e.span.toNat / 256) := by
    rw [toNat_or_shiftLeft (by decide) below room, low, high]
    exact congrArg _ (Nat.mul_comm _ 16)
  unfold directive
  rw [check_eq, Entry.check_eq_ok_iff.2 h, plain_ok, pure_bind]
  simp only [byteOf_and, pure_bind, shiftWord_eq (by decide) room,
    byteOf_of_toNat both (by omega)]
  rfl

/-- The word of an entry that fits loses nothing. -/
theorem directive_tenSix (h : e.Fits Layout.tenSix.format) :
    directive .tenSix e = pure (Layout.tenSix.directiveOf e) := by
  have offset : e.offset.toNat < 1024 := Width.holds_iff.1 h.1
  have span : e.span.toNat < 64 := Width.holds_iff.1 h.2
  have room : e.span.toNat * Nat.pow 2 (10 : UInt32).toNat < 4294967296 := by
    show e.span.toNat * 1024 < 4294967296
    omega
  have both : (e.offset ||| e.span <<< 10).toNat = Layout.tenSixWord e := by
    rw [toNat_or_shiftLeft (by decide) offset room]
    exact congrArg _ (Nat.mul_comm _ 1024)
  have half : Layout.tenSixWord e < 65536 := by
    unfold Layout.tenSixWord
    omega
  unfold directive
  rw [check_eq, Entry.check_eq_ok_iff.2 h, plain_ok, pure_bind]
  simp only [pure_bind, shiftWord_eq (by decide) room, halfOf_of_toNat both half,
    UInt16.toNat_ofNat_of_lt' half]
  rfl

/-- An entry is written or refused without a fault. -/
theorem directive_eq (l : Layout) (e : Entry) : directive l e = plain (l.directive e) := by
  by_cases fits : e.Fits l.format
  · rw [Layout.directive_eq_ok_iff.2 ⟨fits, rfl⟩, plain_ok]
    rcases l with unit | _ | _
    · unfold directive
      rw [check_eq, Entry.check_eq_ok_iff.2 fits]
      rfl
    · exact directive_twelve fits
    · exact directive_tenSix fits
  · unfold directive Layout.directive
    rw [check_eq]
    cases hc : e.check l.format with
    | ok done => exact absurd (Entry.check_eq_ok_iff.1 hc) fits
    | error reason => rfl

end Directives

section Tables

variable {s : RangeStore} {t : FlatTable} {tree : Decision} {first last : Nat}

theorem entries_eq (hle : t.first ≤ t.last) (hl : t.last < s.size) :
    entries s.intervals t.first t.last = pure (t.entries s) := by
  unfold entries FlatTable.entries FlatTable.base
  rw [element_store (by omega), pure_bind, slice_store hle hl, pure_bind]
  apply mapM_eq_pure
  intro r hr
  have upright := span_slice hl r hr
  obtain ⟨k, hf, hk, rfl⟩ := (RangeStore.mem_slice_iff hl).1 hr
  rw [subWord_eq (RangeStore.low_mono hf (by omega)), pure_bind, upright, pure_bind]

theorem symbolicTable_eq (hle : t.first ≤ t.last) (hl : t.last < s.size) :
    symbolicTable s.intervals t = pure (Symbolic.table s t) := by
  unfold symbolicTable
  rw [element_store (by omega), pure_bind, entries_eq hle hl, pure_bind]
  rfl

theorem spaces_eq {n : Nat} (h : n < 65536) : spaces n = pure (Symbolic.spaces n) := if_pos h

/-- The lines of a node are written without a fault as long as the tree is no higher than an
indentation is wide. No more splits end with a node than are above it. -/
theorem node_eq (hc : tree.Covers first last) (hl : last < s.size) {depth ending : Nat}
    (hd : depth + tree.height < 65536) (he : ending ≤ depth) :
    node s.intervals depth ending tree = pure (Symbolic.node s depth ending tree) := by
  induction tree generalizing first last depth ending with
  | leaf t =>
    obtain ⟨rfl, rfl, hle⟩ := hc
    rw [node, spaces_eq (by omega), pure_bind, symbolicTable_eq hle hl, pure_bind,
      addIndex_eq (by omega), pure_bind]
    rfl
  | split pivot left right ihl ihr =>
    obtain ⟨hle, hlt, hcl, hcr⟩ := hc
    rw [Decision.height] at hd
    have below := ihl hcl (by omega) (by omega) (Nat.zero_le (depth + 1))
    have above := ihr hcr hl (by omega) (by omega : 1 + ending ≤ depth + 1)
    have deeper : addIndex depth 1 = pure (depth + 1) := addIndex_eq (by omega)
    rw [node, spaces_eq (by omega), pure_bind, element_store (by omega), pure_bind, deeper, pure_bind,
      below, pure_bind, pure_bind, addIndex_eq (by omega), pure_bind, above, pure_bind]
    rfl

theorem finish_entries (l : Layout) (es : List Entry) :
    (Draft.concat (es.map (Assembly.entry l))).finish =
      (es.mapM l.directive).map (List.map Line.data) := by
  induction es with
  | nil => rfl
  | cons e rest ih =>
    rw [Draft.finish_concat_cons, ih, List.mapM_cons, Assembly.entry]
    cases l.directive e with
    | error reason => rfl
    | ok d => cases rest.mapM l.directive <;> rfl

theorem table_eq (hle : t.first ≤ t.last) (hl : t.last < s.size) :
    table s.intervals t = plain (Assembly.table s t).finish := by
  unfold table Assembly.table
  cases Layout.ofFormat t.format with
  | error reason => rfl
  | ok l =>
    have each : (t.entries s).mapM (directive l) = plain ((t.entries s).mapM l.directive) :=
      mapM_eq_plain fun e _ => directive_eq l e
    simp only [plain_ok, pure_bind, entries_eq hle hl, each, Draft.finish_append, finish_entries]
    cases (t.entries s).mapM l.directive <;> rfl

theorem block_eq {name : String} (hc : tree.Covers first last) (hl : last < s.size) :
    block name s.intervals tree = pure (Assembly.block name s tree) := by
  induction tree generalizing first last with
  | leaf t =>
    obtain ⟨rfl, rfl, hle⟩ := hc
    have store := s.size_le
    rw [block, element_store (by omega), pure_bind, subIndex_eq hle, pure_bind,
      addIndex_eq (by omega), pure_bind]
    rfl
  | split pivot left right ihl ihr =>
    obtain ⟨hle, hlt, hcl, hcr⟩ := hc
    rw [block, element_store (by omega), pure_bind, ihl hcl (by omega), pure_bind, ihr hcr hl,
      pure_bind]
    rfl

theorem assembly_eq {name : String} (hc : tree.Covers first last) (hl : last < s.size) :
    assembly name s.intervals tree = plain (Listing.assembly name s tree) := by
  have tables : tree.leaves.mapM (table s.intervals) =
      plain (tree.leaves.mapM fun t => (Assembly.table s t).finish) := by
    apply mapM_eq_plain
    intro t ht
    obtain ⟨-, hle, hlt⟩ := hc.tiles.bounds ht
    exact table_eq hle (by omega)
  unfold assembly Listing.assembly Assembly.lines Assembly.data
  rw [tables, block_eq hc hl, Draft.finish_append, Draft.finish_append, Draft.finish_concat]
  cases tree.leaves.mapM fun t => (Assembly.table s t).finish <;> rfl

end Tables

end Checked

end RangeLookup
