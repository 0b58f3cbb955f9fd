import RangeLookup.Numeral

/-!
# Table formats

An entry of a flat table has two fields, the offset of a range from the base of its table and the
span of the range; a format fixes the width of each. Full width stores offsets without a base.
`Width.holds_iff` says which values a field can hold.
-/

namespace RangeLookup

/-- The width of a field, in bits. -/
structure Width where
  bits : Nat
  one_le : 1 ≤ bits := by decide
  le_thirtyTwo : bits ≤ 32 := by decide
  deriving DecidableEq

namespace Width

/-- A field of as many bits, from one to thirty-two. -/
def ofNat? (bits : Nat) : Option Width :=
  if h : 1 ≤ bits ∧ bits ≤ 32 then some ⟨bits, h.1, h.2⟩ else none

/-- How many values an unsigned field of this width can hold. -/
def values (w : Width) : Nat := Nat.pow 2 w.bits

/-- Whether the field can hold the value. -/
def holds (w : Width) (v : UInt32) : Bool := v.toNat < w.values

theorem ext {v w : Width} (h : v.bits = w.bits) : v = w := by
  cases v; cases w; cases h; rfl

theorem ofNat?_eq_some_iff {n : Nat} {w : Width} : ofNat? n = some w ↔ w.bits = n := by
  unfold ofNat?
  constructor
  · intro h
    split at h
    · cases h; rfl
    · cases h
  · rintro rfl
    rw [dif_pos ⟨w.one_le, w.le_thirtyTwo⟩]

theorem holds_iff {w : Width} {v : UInt32} : w.holds v = true ↔ v.toNat < w.values := by
  simp [holds]

/-- A field of full width holds every value. -/
theorem holds_of_bits_eq {w : Width} (h : w.bits = 32) (v : UInt32) : w.holds v = true := by
  rw [holds_iff, values, h]; exact v.toNat_lt

end Width

/-- The widths of the offset field and of the span field of a table entry. -/
structure Format where
  base : Width
  span : Width
  deriving DecidableEq

namespace Format

/-- Sixteen bits for each field. -/
def words : Format := ⟨⟨16, by decide, by decide⟩, ⟨16, by decide, by decide⟩⟩

/-- Full width for each field. -/
def doubleWords : Format := ⟨⟨32, by decide, by decide⟩, ⟨32, by decide, by decide⟩⟩

/-- The format with fields of as many bits. -/
def ofBits? (base span : Nat) : Option Format := do
  return ⟨← Width.ofNat? base, ← Width.ofNat? span⟩

/-- Offsets are stored in full, so that the table needs no base. -/
def isRaw (f : Format) : Bool := f.base.bits == 32

/-- Bytes for one entry, the last one filled up. -/
def entrySize (f : Format) : Nat := (f.base.bits + f.span.bits + 7) / 8

/-- The written form of two widths. -/
def textOfBits (base span : Nat) : String := decimal base ++ "x" ++ decimal span

/-- The written form: the width of the offset, `x`, and the width of the span. -/
def text (f : Format) : String := textOfBits f.base.bits f.span.bits

theorem entrySize_pos (f : Format) : 1 ≤ f.entrySize := by
  have := f.base.one_le
  unfold entrySize; omega

theorem entrySize_le (f : Format) : f.entrySize ≤ 8 := by
  have := f.base.le_thirtyTwo
  have := f.span.le_thirtyTwo
  unfold entrySize; omega

end Format

end RangeLookup
