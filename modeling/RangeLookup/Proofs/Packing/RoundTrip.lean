import Mathlib
import RangeLookup.Packing

/-!
# Entries come back from their bytes

Entries that fit come back from their bytes. A layout writes a fitting entry as as many bytes as its
format says (`Layout.length_bytesOf`), reads it back and leaves what follows (`decode?_bytesOf`), so
a run of entries is read back entry for entry (`decodeAll_flatMap`). The directive of an entry
assembles to the same bytes (`assemble_directiveOf`).

What a fitting entry needs is one bound a layout: a unit of data holds as many values as the field
is wide, and the halves of the two other layouts do not run into each other.
-/

namespace RangeLookup

theorem Entry.check_eq_ok_iff {e : Entry} {f : Format} : e.check f = .ok () ↔ e.Fits f := by
  unfold check Fits
  cases f.base.holds e.offset <;> cases f.span.holds e.span <;> simp

/-- The format is one of the five that have a byte layout. -/
def Format.Packable (f : Format) : Prop :=
  (f.base.bits, f.span.bits) ∈ [(8, 8), (16, 16), (32, 32), (12, 12), (10, 6)]

instance (f : Format) : Decidable f.Packable := inferInstanceAs (Decidable (_ ∈ _))

theorem Format.ext {f g : Format} (hb : f.base.bits = g.base.bits) (hs : f.span.bits = g.span.bits) :
    f = g := by
  cases f; cases g
  cases Width.ext hb; cases Width.ext hs
  rfl

namespace Layout

variable {l : Layout} {e : Entry} {d : Directive}

theorem ofFormat_eq_ok_iff {f : Format} : ofFormat f = .ok l ↔ l.format = f := by
  rw [← ofFormat?_eq_some_iff, ofFormat]
  cases ofFormat? f <;> simp

theorem packable_iff {f : Format} : f.Packable ↔ ∃ l : Layout, l.format = f := by
  have widths : ∀ l : Layout, l.format.Packable := by
    rintro (unit | _ | _)
    · cases unit <;> decide
    · decide
    · decide
  constructor
  · intro h
    simp only [Format.Packable, List.mem_cons, List.not_mem_nil, or_false, Prod.mk.injEq] at h
    rcases h with ⟨hb, hs⟩ | ⟨hb, hs⟩ | ⟨hb, hs⟩ | ⟨hb, hs⟩ | ⟨hb, hs⟩
    · exact ⟨uniform .byte, Format.ext hb.symm hs.symm⟩
    · exact ⟨uniform .word, Format.ext hb.symm hs.symm⟩
    · exact ⟨uniform .doubleWord, Format.ext hb.symm hs.symm⟩
    · exact ⟨twelve, Format.ext hb.symm hs.symm⟩
    · exact ⟨tenSix, Format.ext hb.symm hs.symm⟩
  · rintro ⟨l, rfl⟩
    exact widths l

theorem takeNumber?_littleEndian {size n : Nat} (h : n < Nat.pow 256 size) (rest : Bytes) :
    takeNumber? size (littleEndian size n ++ rest) = some (n, rest) := by
  have long : size ≤ (littleEndian size n ++ rest).length := by simp
  rw [takeNumber?, if_pos long, List.take_left' (length_littleEndian size n),
    List.drop_left' (length_littleEndian size n), ofLittleEndian_littleEndian h]

theorem values_uniform (unit : DataUnit) :
    (uniform unit).format.base.values = Nat.pow 256 unit.size ∧
      (uniform unit).format.span.values = Nat.pow 256 unit.size := by
  cases unit <;> decide

theorem length_bytesOf (l : Layout) (e : Entry) : (l.bytesOf e).length = l.format.entrySize := by
  rcases l with unit | _ | _
  · rw [bytesOf, List.length_append, length_littleEndian, length_littleEndian]
    cases unit <;> rfl
  · show 3 = twelve.format.entrySize
    rfl
  · rw [bytesOf, length_littleEndian]
    rfl

/-- An entry that fits is read back, and what follows its bytes is left. -/
theorem decode?_bytesOf (h : e.Fits l.format) (rest : Bytes) :
    l.decode? (l.bytesOf e ++ rest) = some (e, rest) := by
  obtain ⟨offset, span⟩ := h
  rw [Width.holds_iff] at offset span
  rcases l with unit | _ | _
  · rw [(values_uniform unit).1] at offset
    rw [(values_uniform unit).2] at span
    rw [decode?, bytesOf, List.append_assoc, takeNumber?_littleEndian offset]
    simp only [Option.bind_eq_bind, Option.bind_some, takeNumber?_littleEndian span]
    simp
  · have offset : e.offset.toNat < 4096 := offset
    have span : e.span.toNat < 4096 := span
    rw [bytesOf, twelveBytes]
    simp only [decode?, List.cons_append, List.nil_append, UInt8.toNat_ofNat']
    have low : e.offset.toNat % 256 % 2 ^ 8 +
        256 * ((e.offset.toNat / 256 + 16 * (e.span.toNat / 256)) % 2 ^ 8 % 16) =
      e.offset.toNat := by omega
    have high : e.span.toNat % 256 % 2 ^ 8 +
        256 * ((e.offset.toNat / 256 + 16 * (e.span.toNat / 256)) % 2 ^ 8 / 16) =
      e.span.toNat := by omega
    rw [low, high, UInt32.ofNat_toNat, UInt32.ofNat_toNat]
  · have offset : e.offset.toNat < 1024 := offset
    have span : e.span.toNat < 64 := span
    have word : tenSixWord e < Nat.pow 256 2 := by
      show e.offset.toNat + 1024 * e.span.toNat < 65536
      omega
    have low : tenSixWord e % 1024 = e.offset.toNat := by
      unfold tenSixWord
      omega
    have high : tenSixWord e / 1024 = e.span.toNat := by
      unfold tenSixWord
      omega
    rw [decode?, bytesOf, takeNumber?_littleEndian word]
    simp only [Option.bind_eq_bind, Option.bind_some, low, high, UInt32.ofNat_toNat]
    rfl

/-- Entries that fit are read back in order, and nothing else with them. -/
theorem decodeAll_flatMap {entries : List Entry} (h : ∀ e ∈ entries, e.Fits l.format) :
    l.decodeAll (entries.flatMap l.bytesOf) = .ok entries := by
  induction entries with
  | nil => rw [List.flatMap_nil, decodeAll, if_pos rfl]
  | cons e rest ih =>
    rw [List.forall_mem_cons] at h
    have head := decode?_bytesOf h.1 (rest.flatMap l.bytesOf)
    have some_byte : l.bytesOf e ++ rest.flatMap l.bytesOf ≠ [] := by
      intro none
      have length := congrArg List.length none
      have size := l.format.entrySize_pos
      rw [List.length_append, length_bytesOf, List.length_nil] at length
      omega
    rw [List.flatMap_cons, decodeAll, if_neg some_byte]
    split
    · next e' rest' found =>
      rw [head] at found
      cases found
      rw [ih h.2]
      rfl
    · next found =>
      rw [head] at found
      cases found

/-- The directive of an entry that fits. -/
def directiveOf (l : Layout) (e : Entry) : Directive :=
  match l with
  | uniform unit => ⟨unit, 1, [e.offset.toNat, e.span.toNat]⟩
  | twelve => ⟨.byte, 2, (twelveBytes e).map UInt8.toNat⟩
  | tenSix => ⟨.word, 4, [tenSixWord e]⟩

theorem directive_eq_ok_iff : l.directive e = .ok d ↔ e.Fits l.format ∧ l.directiveOf e = d := by
  rw [← Entry.check_eq_ok_iff]
  unfold directive directiveOf
  cases e.check l.format with
  | error reason => simp [bind, Except.bind]
  | ok _ => cases l <;> simp [bind, Except.bind, pure, Except.pure]

/-- A directive assembles to the bytes of its entry. -/
theorem assemble_directiveOf (l : Layout) (e : Entry) :
    (l.directiveOf e).assemble = l.bytesOf e := by
  have byte : ∀ b : UInt8, littleEndian 1 b.toNat = [b] := fun b =>
    littleEndian_ofLittleEndian [b]
  rcases l with unit | _ | _
  · simp [directiveOf, Directive.assemble, bytesOf]
  · show ((twelveBytes e).map UInt8.toNat).flatMap (littleEndian 1) = twelveBytes e
    simp only [List.flatMap_map, byte, List.flatMap_singleton']
  · simp [directiveOf, Directive.assemble, bytesOf, DataUnit.size]

theorem operands_directiveOf_ne_nil (l : Layout) (e : Entry) : (l.directiveOf e).operands ≠ [] := by
  cases l <;> simp [directiveOf, twelveBytes]

end Layout

end RangeLookup
