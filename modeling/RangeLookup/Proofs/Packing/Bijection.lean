import RangeLookup.Packing.Reading
import RangeLookup.Proofs.Packing.RoundTrip

/-!
# Packed data and entries are in bijection

Packed data and entries that fit are the same thing in two forms. A layout reads an entry exactly
where data begin with the bytes of an entry that fits (`decode?_eq_some_iff`), so no bytes stand for
nothing and none are left over: data unpack to the entries whose bytes they are
(`decodeAll_eq_ok_iff`), and packing those gives the same bytes (`pack_eq_ok_iff`). What cannot be
read is shorter than an entry (`decode?_eq_none_iff`), so all that fails is data whose length is no
multiple of the size of an entry.
-/

namespace RangeLookup

namespace Layout

variable {l : Layout} {e : Entry} {bytes rest buffer : Bytes} {entries : List Entry} {size n : Nat}

theorem takeNumber?_eq_some_iff : takeNumber? size bytes = some (n, rest) ↔
    n < Nat.pow 256 size ∧ littleEndian size n ++ rest = bytes := by
  constructor
  · intro h
    unfold takeNumber? at h
    split at h
    · next long =>
      cases h
      have front : (bytes.take size).length = size := by rw [List.length_take]; omega
      have bound := ofLittleEndian_lt (bytes.take size)
      have written := littleEndian_ofLittleEndian (bytes.take size)
      rw [front] at bound written
      exact ⟨bound, by rw [written, List.take_append_drop]⟩
    · cases h
  · rintro ⟨bound, rfl⟩
    exact takeNumber?_littleEndian bound rest

theorem toNat_word (h : n < 4294967296) : (UInt32.ofNat n).toNat = n := UInt32.toNat_ofNat_of_lt' h

/-- A unit of data is no wider than a word. -/
theorem pow_size_le (unit : DataUnit) : Nat.pow 256 unit.size ≤ 4294967296 := by
  cases unit <;> decide

theorem eq_bytesOf_uniform {unit : DataUnit}
    (h : (uniform unit).decode? bytes = some (e, rest)) :
    e.Fits (uniform unit).format ∧ (uniform unit).bytesOf e ++ rest = bytes := by
  simp only [decode?, Option.bind_eq_bind, Option.bind_eq_some_iff, Option.pure_def,
    Option.some.injEq, Prod.mk.injEq, Prod.exists] at h
  obtain ⟨offset, behind, first, span, behind', second, rfl, rfl⟩ := h
  obtain ⟨offset_lt, rfl⟩ := takeNumber?_eq_some_iff.1 first
  obtain ⟨span_lt, rfl⟩ := takeNumber?_eq_some_iff.1 second
  have word := pow_size_le unit
  have offset_word : (UInt32.ofNat offset).toNat = offset := toNat_word (by omega)
  have span_word : (UInt32.ofNat span).toNat = span := toNat_word (by omega)
  rw [Entry.Fits, Width.holds_iff, Width.holds_iff, (values_uniform unit).1,
    (values_uniform unit).2, bytesOf, offset_word, span_word, List.append_assoc]
  exact ⟨⟨offset_lt, span_lt⟩, rfl⟩

theorem eq_bytesOf_twelve (h : twelve.decode? bytes = some (e, rest)) :
    e.Fits twelve.format ∧ twelve.bytesOf e ++ rest = bytes := by
  simp only [decode?] at h
  split at h
  · next lowOffset lowSpan high behind =>
    cases h
    have offset_byte := lowOffset.toNat_lt
    have span_byte := lowSpan.toNat_lt
    have high_byte := high.toNat_lt
    -- the halves of the third byte are the high digits of offset and span
    have offset_word : (UInt32.ofNat (lowOffset.toNat + 256 * (high.toNat % 16))).toNat =
        lowOffset.toNat + 256 * (high.toNat % 16) := toNat_word (by omega)
    have span_word : (UInt32.ofNat (lowSpan.toNat + 256 * (high.toNat / 16))).toNat =
        lowSpan.toNat + 256 * (high.toNat / 16) := toNat_word (by omega)
    have offset_low : (lowOffset.toNat + 256 * (high.toNat % 16)) % 256 = lowOffset.toNat := by omega
    have span_low : (lowSpan.toNat + 256 * (high.toNat / 16)) % 256 = lowSpan.toNat := by omega
    have both_high : (lowOffset.toNat + 256 * (high.toNat % 16)) / 256 +
        16 * ((lowSpan.toNat + 256 * (high.toNat / 16)) / 256) = high.toNat := by omega
    constructor
    · rw [Entry.Fits, Width.holds_iff, Width.holds_iff, offset_word, span_word]
      show _ < 4096 ∧ _ < 4096
      omega
    · rw [bytesOf, twelveBytes, offset_word, span_word, offset_low, span_low, both_high,
        UInt8.ofNat_toNat, UInt8.ofNat_toNat, UInt8.ofNat_toNat]
      rfl
  · cases h

theorem eq_bytesOf_tenSix (h : tenSix.decode? bytes = some (e, rest)) :
    e.Fits tenSix.format ∧ tenSix.bytesOf e ++ rest = bytes := by
  simp only [decode?, Option.bind_eq_bind, Option.bind_eq_some_iff, Option.pure_def,
    Option.some.injEq, Prod.mk.injEq, Prod.exists] at h
  obtain ⟨word, behind, first, rfl, rfl⟩ := h
  obtain ⟨bound, rfl⟩ := takeNumber?_eq_some_iff.1 first
  have bound : word < 65536 := bound
  have offset_word : (UInt32.ofNat (word % 1024)).toNat = word % 1024 :=
    toNat_word (by omega)
  have span_word : (UInt32.ofNat (word / 1024)).toNat = word / 1024 :=
    toNat_word (by omega)
  constructor
  · rw [Entry.Fits, Width.holds_iff, Width.holds_iff, offset_word, span_word]
    show _ < 1024 ∧ _ < 64
    omega
  · rw [bytesOf, tenSixWord, offset_word, span_word, Nat.mod_add_div]

/-- An entry is read exactly where the data begin with the bytes of an entry that fits. -/
theorem decode?_eq_some_iff : l.decode? bytes = some (e, rest) ↔
    e.Fits l.format ∧ l.bytesOf e ++ rest = bytes := by
  constructor
  · intro h
    cases l with
    | uniform unit => exact eq_bytesOf_uniform h
    | twelve => exact eq_bytesOf_twelve h
    | tenSix => exact eq_bytesOf_tenSix h
  · rintro ⟨fits, rfl⟩
    exact decode?_bytesOf fits rest

theorem takeNumber?_of_le (h : size ≤ bytes.length) :
    takeNumber? size bytes = some (ofLittleEndian (bytes.take size), bytes.drop size) := if_pos h

/-- Data with as many bytes as an entry begin with one. -/
theorem exists_decode? (h : l.format.entrySize ≤ bytes.length) :
    ∃ e rest, l.decode? bytes = some (e, rest) := by
  rcases l with unit | _ | _
  · have size := entrySize_uniform unit
    have second : unit.size ≤ (bytes.drop unit.size).length := by rw [List.length_drop]; omega
    rw [decode?, takeNumber?_of_le (by omega)]
    simp only [Option.bind_eq_bind, Option.bind_some, takeNumber?_of_le second]
    exact ⟨_, _, rfl⟩
  · have long : 3 ≤ bytes.length := h
    rcases bytes with _ | ⟨lowOffset, _ | ⟨lowSpan, _ | ⟨high, rest⟩⟩⟩
    · simp at long
    · simp at long
    · simp at long
    · exact ⟨_, _, rfl⟩
  · have long : 2 ≤ bytes.length := h
    rw [decode?, takeNumber?_of_le long]
    exact ⟨_, _, rfl⟩

/-- What cannot be read is shorter than an entry. -/
theorem decode?_eq_none_iff : l.decode? bytes = none ↔ bytes.length < l.format.entrySize := by
  constructor
  · intro none
    by_contra long
    obtain ⟨e, rest, read⟩ := exists_decode? (Nat.le_of_not_lt long)
    cases none.symm.trans read
  · intro short
    cases read : l.decode? bytes with
    | none => rfl
    | some found =>
      obtain ⟨e, rest⟩ := found
      have length := decode?_length read
      omega

theorem map_eq_ok_iff {ε α β : Type} {x : Except ε α} {f : α → β} {b : β} :
    x.map f = .ok b ↔ ∃ a, x = .ok a ∧ f a = b := by
  cases x <;> simp [Except.map]

/-- Data unpack to entries exactly when they are the bytes of these entries, one after the other,
and each fits. -/
theorem decodeAll_eq_ok_iff : l.decodeAll bytes = .ok entries ↔
    (∀ e ∈ entries, e.Fits l.format) ∧ entries.flatMap l.bytesOf = bytes := by
  constructor
  · intro h
    fun_induction decodeAll l bytes generalizing entries with
    | case1 =>
      cases h
      simp
    | case2 bytes filled e rest found ih =>
      obtain ⟨fits, rfl⟩ := decode?_eq_some_iff.1 found
      obtain ⟨behind, all, rfl⟩ := map_eq_ok_iff.1 h
      obtain ⟨fit, rfl⟩ := ih all
      exact ⟨List.forall_mem_cons.2 ⟨fits, fit⟩, List.flatMap_cons⟩
    | case3 => cases h
  · rintro ⟨fits, rfl⟩
    exact decodeAll_flatMap fits

theorem length_flatMap_bytesOf (l : Layout) (entries : List Entry) :
    (entries.flatMap l.bytesOf).length = entries.length * l.format.entrySize := by
  induction entries with
  | nil => simp
  | cons e rest ih =>
    rw [List.flatMap_cons, List.length_append, length_bytesOf, ih, List.length_cons, Nat.succ_mul]
    omega

/-- Data that hold whole entries unpack. -/
theorem exists_decodeAll (h : l.format.entrySize ∣ bytes.length) :
    ∃ entries, l.decodeAll bytes = .ok entries := by
  fun_induction decodeAll l bytes with
  | case1 => exact ⟨[], rfl⟩
  | case2 bytes filled e rest found ih =>
    rw [decode?_length found, Nat.dvd_add_right (Nat.dvd_refl _)] at h
    obtain ⟨behind, all⟩ := ih h
    exact ⟨e :: behind, map_eq_ok_iff.2 ⟨behind, all, rfl⟩⟩
  | case3 bytes filled none =>
    -- a stretch shorter than an entry holds whole entries only if it is empty
    have short := decode?_eq_none_iff.1 none
    have some_byte := List.length_pos_iff.2 filled
    have long := Nat.le_of_dvd some_byte h
    omega

theorem eq_of_decodeAll_eq_error {reason : Error} (h : l.decodeAll bytes = .error reason) :
    reason = .unexpectedEndOfData := by
  fun_induction decodeAll l bytes with
  | case1 => cases h
  | case2 bytes filled e rest found ih =>
    cases all : l.decodeAll rest with
    | error other =>
      rw [all] at h ih
      cases h
      exact ih rfl
    | ok entries =>
      rw [all] at h
      cases h
  | case3 =>
    cases h
    rfl

/-- Data unpack exactly when their length is a multiple of the size of an entry. -/
theorem exists_decodeAll_iff :
    (∃ entries, l.decodeAll bytes = .ok entries) ↔ l.format.entrySize ∣ bytes.length := by
  constructor
  · rintro ⟨entries, all⟩
    obtain ⟨-, rfl⟩ := decodeAll_eq_ok_iff.1 all
    rw [length_flatMap_bytesOf]
    exact Nat.dvd_mul_left _ _
  · exact exists_decodeAll

theorem decodeAll_eq_error (h : ¬ l.format.entrySize ∣ bytes.length) :
    l.decodeAll bytes = .error .unexpectedEndOfData := by
  cases all : l.decodeAll bytes with
  | ok entries => exact absurd (exists_decodeAll_iff.1 ⟨entries, all⟩) h
  | error reason => rw [eq_of_decodeAll_eq_error all]

theorem decodeAll_eq_map (left : bytes ≠ []) (h : l.decode? bytes = some (e, rest)) :
    l.decodeAll bytes = (l.decodeAll rest).map (e :: ·) := by
  rw [decodeAll, if_neg left]
  split
  · next e' rest' found =>
    cases h.symm.trans found
    rfl
  · next found => cases h.symm.trans found

theorem decodeAll_of_none (left : bytes ≠ []) (h : l.decode? bytes = none) :
    l.decodeAll bytes = .error .unexpectedEndOfData := by
  rw [decodeAll, if_neg left]
  split
  · next found => cases h.symm.trans found
  · rfl

/-- Reading from a cursor always comes to an end, and with what the rest of the data unpack to. -/
theorem yields_iff {c : Cursor} {result : Except Error (List Entry)} :
    c.Yields l result ↔ l.decodeAll c.rest = result := by
  constructor
  · intro run
    induction run with
    | done used => rw [used, decodeAll, if_pos rfl]
    | @read c after e result left next more ih =>
      unfold Cursor.next at next
      split at next
      · next e' rest found =>
        cases next
        rw [decodeAll_eq_map left found, ih]
      · cases next
    | @stopped c after reason left next =>
      unfold Cursor.next at next
      split at next
      · cases next
      · next found =>
        cases next
        exact decodeAll_of_none left found
  · rintro rfl
    induction all : c.rest.length using Nat.strong_induction_on generalizing c with
    | _ n ih =>
      by_cases left : c.rest = []
      · rw [left, decodeAll, if_pos rfl]
        exact .done left
      · cases found : l.decode? c.rest with
        | none =>
          rw [decodeAll_of_none left found]
          apply Cursor.Yields.stopped left
          rw [Cursor.next, found]
        | some read =>
          obtain ⟨e, rest⟩ := read
          rw [decodeAll_eq_map left found]
          have length := decode?_length found
          have size := l.format.entrySize_pos
          apply Cursor.Yields.read left
          · rw [Cursor.next, found]
          · exact ih rest.length (by omega) rfl

theorem encode_eq_ok_iff : l.encode e = .ok bytes ↔ e.Fits l.format ∧ l.bytesOf e = bytes := by
  rw [← Entry.check_eq_ok_iff, encode]
  cases e.check l.format with
  | error reason => simp [bind, Except.bind]
  | ok _ => simp [bind, Except.bind, pure, Except.pure]

theorem append_eq_ok_iff :
    l.append buffer e = .ok bytes ↔ e.Fits l.format ∧ buffer ++ l.bytesOf e = bytes := by
  rw [append, map_eq_ok_iff]
  constructor
  · rintro ⟨own, encoded, rfl⟩
    obtain ⟨fits, rfl⟩ := encode_eq_ok_iff.1 encoded
    exact ⟨fits, rfl⟩
  · rintro ⟨fits, rfl⟩
    exact ⟨l.bytesOf e, encode_eq_ok_iff.2 ⟨fits, rfl⟩, rfl⟩

/-- Entries go to the end of a buffer one after the other, all of them or none. -/
theorem foldlM_append_eq_ok_iff : entries.foldlM l.append buffer = .ok bytes ↔
    (∀ e ∈ entries, e.Fits l.format) ∧ buffer ++ entries.flatMap l.bytesOf = bytes := by
  induction entries generalizing buffer with
  | nil => simp [pure, Except.pure]
  | cons e rest ih =>
    rw [List.foldlM_cons, List.forall_mem_cons, List.flatMap_cons, ← List.append_assoc]
    cases appended : l.append buffer e with
    | error reason =>
      have refused : ¬ e.Fits l.format := by
        intro fits
        rw [append_eq_ok_iff.2 ⟨fits, rfl⟩] at appended
        cases appended
      simp [bind, Except.bind, refused]
    | ok longer =>
      obtain ⟨fits, rfl⟩ := append_eq_ok_iff.1 appended
      simp only [bind, Except.bind, ih, fits, true_and]

section Format

variable {f : Format} (hl : ofFormat f = .ok l)

include hl

theorem pack_eq_ok_iff : pack f entries = .ok bytes ↔
    (∀ e ∈ entries, e.Fits f) ∧ entries.flatMap l.bytesOf = bytes := by
  have format := ofFormat_eq_ok_iff.1 hl
  have packed : pack f entries = entries.foldlM l.append [] := by
    rw [pack, hl]
    rfl
  rw [packed, foldlM_append_eq_ok_iff, format, List.nil_append]

theorem unpack_eq_decodeAll : unpack f bytes = l.decodeAll bytes := by
  rw [unpack, hl]
  rfl

end Format

/-- Packing is a bijection between the entries that fit a format and the data that hold whole
entries of it. Entries that fit are packed, and unpacked again as they were. Reading data always
comes to an end; it gives entries exactly when their length allows it, and these fit and pack to the
same data. -/
theorem pack_bijective {f : Format} (hl : ofFormat f = .ok l) :
    (∀ entries : List Entry, (∀ e ∈ entries, e.Fits f) →
      ∃ bytes, pack f entries = .ok bytes ∧ bytes.length = entries.length * f.entrySize ∧
        unpack f bytes = .ok entries) ∧
    ∀ bytes : Bytes,
      (∀ result, Cursor.Yields l ⟨0, bytes⟩ result ↔ unpack f bytes = result) ∧
      ((∃ entries, unpack f bytes = .ok entries) ↔ f.entrySize ∣ bytes.length) ∧
      (¬ f.entrySize ∣ bytes.length → unpack f bytes = .error .unexpectedEndOfData) ∧
      ∀ entries, unpack f bytes = .ok entries →
        (∀ e ∈ entries, e.Fits f) ∧ pack f entries = .ok bytes := by
  obtain rfl := ofFormat_eq_ok_iff.1 hl
  constructor
  · intro entries fits
    refine ⟨entries.flatMap l.bytesOf, (pack_eq_ok_iff hl).2 ⟨fits, rfl⟩,
      length_flatMap_bytesOf l entries, ?_⟩
    rw [unpack_eq_decodeAll hl]
    exact decodeAll_flatMap fits
  · intro bytes
    rw [unpack_eq_decodeAll hl]
    refine ⟨fun result => yields_iff, exists_decodeAll_iff, decodeAll_eq_error, ?_⟩
    intro entries all
    have whole := decodeAll_eq_ok_iff.1 all
    exact ⟨whole.1, (pack_eq_ok_iff hl).2 whole⟩

/-- Two entries of twelve-bit fields, the halves of one of them as great as they can be. -/
def twelveEntries : List Entry := [⟨0xABC, 0x123⟩, ⟨0xFFF, 0xFFF⟩]

theorem pack_bijective_twelve :
    ofFormat twelve.format = .ok twelve ∧ (∀ e ∈ twelveEntries, e.Fits twelve.format) ∧
      (∃ bytes, pack twelve.format twelveEntries = .ok bytes ∧ bytes.length = 6 ∧
        unpack twelve.format bytes = .ok twelveEntries) ∧
      ¬ twelve.format.entrySize ∣ 4 ∧
      unpack twelve.format [0xBC, 0x23, 0x1A, 0xFF] = .error .unexpectedEndOfData ∧
      ∃ entries, unpack twelve.format [0xBC, 0x23, 0x1A] = .ok entries ∧
        (∀ e ∈ entries, e.Fits twelve.format) ∧
        pack twelve.format entries = .ok [0xBC, 0x23, 0x1A] := by
  have layout : ofFormat twelve.format = .ok twelve := ofFormat_eq_ok_iff.2 rfl
  have fits : ∀ e ∈ twelveEntries, e.Fits twelve.format := by decide
  have cut : ¬ twelve.format.entrySize ∣ 4 := by decide
  obtain ⟨there, back⟩ := pack_bijective layout
  obtain ⟨-, -, stops, -⟩ := back [0xBC, 0x23, 0x1A, 0xFF]
  obtain ⟨-, whole, -, again⟩ := back [0xBC, 0x23, 0x1A]
  obtain ⟨entries, all⟩ := whole.2 (by decide)
  exact ⟨layout, fits, there twelveEntries fits, cut, stops cut, entries, all, again entries all⟩

end Layout

end RangeLookup
