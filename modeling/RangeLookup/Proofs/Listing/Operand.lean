import Mathlib
import RangeLookup.Listing.Assembly.Reading

/-!
# The parts of a line that vary

The parts that vary are read back: numerals, runs of ranges, words, the operands of data and the
addresses of tables. Each is written by one function and read by another, and reading what was
written gives it back. Numerals are told from what stands around them by their characters alone
(`Radix.not_mem_write`): none of the separators is a digit.
-/

namespace RangeLookup

namespace Radix

variable {r : Radix} {n : Nat} {c : Char}

theorem not_mem_write (h : r.isDigit c = false) : c ∉ r.write n := by
  intro hc
  rw [isDigit_of_mem_write hc] at h
  cases h

theorem isDigit_of_mem_writePadded {width : Nat} (hc : c ∈ r.writePadded width n) :
    r.isDigit c = true := by
  rcases List.mem_append.1 hc with zero | digit
  · rw [List.eq_of_mem_replicate zero]
    cases r <;> decide
  · exact isDigit_of_mem_write digit

theorem not_mem_writePadded {width : Nat} (h : r.isDigit c = false) :
    c ∉ r.writePadded width n := by
  intro hc
  rw [isDigit_of_mem_writePadded hc] at h
  cases h

theorem read?_writePadded (r : Radix) (width n : Nat) :
    r.read? (r.writePadded width n) = some n := by
  have digits : (r.writePadded width n).all r.isDigit = true :=
    List.all_eq_true.2 fun c hc => isDigit_of_mem_writePadded hc
  have filled : (r.writePadded width n).isEmpty = false := by
    simp [writePadded, r.write_ne_nil n]
  have value : r.value (r.writePadded width n) = n := by
    rw [writePadded, value_zeros_append, value_write]
  simp [read?, digits, filled, value]

theorem exists_write_eq_concat (r : Radix) (n : Nat) :
    ∃ front, ∃ d < 16, r.write n = front ++ [digitChar d] := by
  rcases List.eq_nil_or_concat (r.digits n) with none | ⟨front, d, digits⟩
  · exact absurd none (r.digits_ne_nil n)
  · have hd : d < r.size := r.digits_lt n d (by simp [digits])
    refine ⟨front.map digitChar, d, Nat.lt_of_lt_of_le hd r.size_le, ?_⟩
    simp [write, digits]

end Radix

theorem read?_decimal (n : Nat) : Radix.decimal.read? (decimal n).toList = some n := by
  rw [decimal, String.toList_ofList, Radix.read?_write]

theorem not_mem_decimal {n : Nat} {c : Char} (h : Radix.decimal.isDigit c = false) :
    c ∉ (decimal n).toList := by
  rw [decimal, String.toList_ofList]
  exact Radix.not_mem_write h

theorem not_mem_hexadecimal {n : Nat} {c : Char} (h : Radix.hexadecimal.isDigit c = false) :
    c ∉ (hexadecimal n).toList := by
  rw [hexadecimal, String.toList_ofList]
  exact Radix.not_mem_write h

theorem Format.ofBits?_bits (f : Format) : ofBits? f.base.bits f.span.bits = some f := by
  have base : Width.ofNat? f.base.bits = some f.base := Width.ofNat?_eq_some_iff.2 rfl
  have span : Width.ofNat? f.span.bits = some f.span := Width.ofNat?_eq_some_iff.2 rfl
  rw [ofBits?, base, span]
  rfl

namespace Listing

theorem mapM_eq_some {α β : Type} {f : α → Option β} {g : α → β} {items : List α}
    (h : ∀ a ∈ items, f a = some (g a)) : items.mapM f = some (items.map g) := by
  induction items with
  | nil => rfl
  | cons a rest ih =>
    rw [List.forall_mem_cons] at h
    rw [List.mapM_cons, h.1, ih h.2]
    rfl

/-- A list that does not hold an item is passed over in the search for it. -/
theorem bne_of_not_mem {α : Type} [DecidableEq α] {a : α} {items : List α} (h : a ∉ items) :
    ∀ b ∈ items, (b != a) = true := by
  intro b hb
  rw [bne_iff_ne]
  rintro rfl
  exact h hb

theorem isPrefixOf?_append (lead rest : List Char) : lead.isPrefixOf? (lead ++ rest) = some rest :=
  List.isPrefixOf?_eq_some_iff_append_eq.2 rfl

theorem pair?_decimal (i j : Nat) :
    pair? ((decimal i).toList ++ '_' :: (decimal j).toList) = some (i, j) := by
  have digits : ∀ c ∈ (decimal i).toList, (c != '_') = true :=
    bne_of_not_mem (not_mem_decimal (by decide))
  rw [pair?, List.takeWhile_append_of_pos digits, List.dropWhile_append_of_pos digits]
  simp [read?_decimal]

theorem labelRun?_decimal (i j : Nat) :
    labelRun? ((decimal i).toList ++ '_' :: (decimal j).toList ++ [':']) = some (i, j) := by
  rw [labelRun?, List.getLast?_concat, if_pos rfl, List.dropLast_concat, pair?_decimal]

theorem word?_hexadecimal (v : UInt32) : word? (hexadecimal v.toNat).toList = some v := by
  have fits : v.toNat < 4294967296 := v.toNat_lt
  rw [word?, hexadecimal, String.toList_ofList, Radix.read?_write]
  simp [Option.filter, fits]

theorem format?_decimal (f : Format) :
    format? ((decimal f.base.bits).toList ++ '_' :: (decimal f.span.bits).toList) = some f := by
  rw [format?, pair?_decimal, Option.bind_some, Format.ofBits?_bits]

theorem toList_operandText (digits n : Nat) : (Directive.operandText digits n).toList =
    "0x".toList ++ Radix.hexadecimal.writePadded digits n := by
  rw [Directive.operandText, String.toList_append, String.toList_ofList (l := Radix.writePadded ..)]

theorem not_mem_operandText {digits n : Nat} {c : Char} (hx : c ∉ "0x".toList)
    (hd : Radix.hexadecimal.isDigit c = false) : c ∉ (Directive.operandText digits n).toList := by
  rw [toList_operandText, List.mem_append, not_or]
  exact ⟨hx, Radix.not_mem_writePadded hd⟩

theorem operand?_text (digits n : Nat) :
    operand? (' ' :: (Directive.operandText digits n).toList) = some n := by
  have written : ' ' :: (Directive.operandText digits n).toList =
      " 0x".toList ++ Radix.hexadecimal.writePadded digits n := by
    rw [toList_operandText]
    rfl
  rw [operand?, written, isPrefixOf?_append, Option.bind_some, Radix.read?_writePadded]

/-- A space moves from the separator to the pieces. -/
theorem cons_intercalate (pieces : List (List Char)) (h : pieces ≠ []) :
    ' ' :: [',', ' '].intercalate pieces = [','].intercalate (pieces.map (' ' :: ·)) := by
  induction pieces with
  | nil => exact absurd rfl h
  | cons piece rest ih =>
    by_cases hr : rest = []
    · simp [hr]
    · rw [List.map_cons, List.intercalate_cons_of_ne_nil hr,
        List.intercalate_cons_of_ne_nil (by simpa using hr), ← ih hr]
      simp

/-- The operands of a directive, written behind its mnemonic, are read back whatever their
padding. -/
theorem operands?_text (digits : Nat) {operands : List Nat} (h : operands ≠ []) :
    operands? (' ' :: (String.intercalate ", " (operands.map (Directive.operandText digits))).toList)
      = some operands := by
  have pieces : ' ' ::
      (String.intercalate ", " (operands.map (Directive.operandText digits))).toList =
        [','].intercalate (operands.map fun n => ' ' :: (Directive.operandText digits n).toList) := by
    rw [String.toList_intercalate, List.map_map]
    exact (cons_intercalate _ (by simpa using h)).trans (by rw [List.map_map]; rfl)
  rw [operands?, pieces, List.splitOn_intercalate ',' _ (by simpa using h), List.mapM_map]
  · have each := mapM_eq_some fun n (_ : n ∈ operands) => operand?_text digits n
    rw [List.map_id'] at each
    exact each
  · intro piece hp
    obtain ⟨n, -, rfl⟩ := List.mem_map.1 hp
    rw [List.mem_cons, not_or]
    exact ⟨by decide, not_mem_operandText (by decide) (by decide)⟩

theorem remarkName?_text (name : String) :
    remarkName? (";; ".toList ++ name.toList) = some name := by
  rw [remarkName?, isPrefixOf?_append, Option.map_some, String.ofList_toList]

theorem address?_text (name : String) (i j : Nat) :
    address? (name.toList ++ "_data.T_".toList ++ ((decimal i).toList ++ '_' :: (decimal j).toList)) =
      some (name, i, j) := by
  generalize hrun : (decimal i).toList ++ '_' :: (decimal j).toList = run
  have dec : ∀ n, '.' ∉ (decimal n).toList := fun n => not_mem_decimal (by decide)
  have no_dot : ∀ c ∈ ("T_".toList ++ run).reverse, (c != '.') = true := by
    apply bne_of_not_mem
    simp [← hrun, dec]
  have back : (name.toList ++ "_data.T_".toList ++ run).reverse =
      ("T_".toList ++ run).reverse ++ '.' :: ("_data".toList.reverse ++ name.toList.reverse) := by
    simp
  have label : ((name.toList ++ "_data.T_".toList ++ run).reverse.takeWhile (· != '.')).reverse =
      "T_".toList ++ run := by
    rw [back, List.takeWhile_append_of_pos no_dot]
    simp
  have front : ((name.toList ++ "_data.T_".toList ++ run).reverse.dropWhile (· != '.')).drop 1 =
      "_data".toList.reverse ++ name.toList.reverse := by
    rw [back, List.dropWhile_append_of_pos no_dot]
    simp
  simp only [address?, label, front, isPrefixOf?_append]
  simp [← hrun, pair?_decimal]

end Listing

end RangeLookup
