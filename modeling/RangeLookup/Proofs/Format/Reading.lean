import Mathlib.Data.List.DropRight
import Mathlib.Data.List.TakeWhile
import RangeLookup.Format.Reading
import RangeLookup.Format.Spelling
import RangeLookup.Proofs.Document.Number
import RangeLookup.Proofs.Numeral

/-!
# Formats are read by their rules

Trimming finds the core of a text (`Text.trim_eq_iff`), a width is read from the core around it
(`Width.read?_eq_some_iff`), and the two widths stand on either side of the first separator
(`splitAtSeparator?_eq_some_iff`). Put together, a text is read exactly as the format that it
spells, and the text of a format spells it.
-/

namespace RangeLookup

namespace Text

variable {text core : List Char}

theorem dropWhile_isBlank_eq_self (start : ∀ c ∈ text.head?, isBlank c = false) :
    text.dropWhile isBlank = text := by
  cases text with
  | nil => rfl
  | cons c more => exact List.dropWhile_cons_of_neg (by simp [start c rfl])

theorem Padded.trim_eq (h : Padded text core) : trim text = core := by
  obtain @⟨lead, trail, before, behind, start, stop, rfl⟩ := h
  have back : ∀ c ∈ trail.reverse, isBlank c = true := fun c hc => behind c (List.mem_reverse.1 hc)
  have stop' : ∀ c ∈ core.reverse.head?, isBlank c = false := by rwa [List.head?_reverse]
  rw [trim, trimStart_append_blanks before]
  by_cases empty : core = []
  · have used : trimStart trail = [] := List.dropWhile_eq_nil_iff.2 behind
    rw [empty, List.nil_append, used]
    rfl
  · have kept : ∀ c ∈ (core ++ trail).head?, isBlank c = false := by
      rwa [List.head?_append_of_ne_nil _ empty]
    rw [trimStart, dropWhile_isBlank_eq_self kept, trimEnd, List.reverse_append,
      List.dropWhile_append_of_pos back, dropWhile_isBlank_eq_self stop', List.reverse_reverse]

theorem not_isBlank_of_dropWhile {c : Char} (first : c ∈ (text.dropWhile isBlank).head?) :
    isBlank c = false := by
  have stop := List.head?_dropWhile_not isBlank text
  rwa [Option.mem_def.1 first] at stop

theorem padded_trim (text : List Char) : Padded text (trim text) := by
  have front : text = text.takeWhile isBlank ++ trimStart text :=
    List.takeWhile_append_dropWhile.symm
  have back : trimStart text = trim text ++ (trimStart text).rtakeWhile isBlank :=
    List.rdropWhile_append_rtakeWhile.symm
  refine .intro (fun c hc => List.mem_takeWhile_imp hc) (fun c hc => List.mem_rtakeWhile_imp hc)
    ?_ ?_ (by rw [← back, ← front])
  · intro c first
    have whole : c ∈ (trimStart text).head? := by
      rw [back, List.head?_append, Option.mem_def.1 first]
      rfl
    exact not_isBlank_of_dropWhile whole
  · intro c last
    rw [trim, trimEnd, List.getLast?_reverse] at last
    exact not_isBlank_of_dropWhile last

theorem padded_self (solid : ∀ c ∈ text, isBlank c = false) : Padded text text :=
  .intro (List.forall_mem_nil _) (List.forall_mem_nil _) (fun c hc => solid c (List.mem_of_mem_head? hc))
    (fun c hc => solid c (List.mem_of_mem_getLast? hc)) (List.append_nil _).symm

theorem trim_eq_iff : trim text = core ↔ Padded text core := by
  constructor
  · rintro rfl
    exact padded_trim text
  · exact Padded.trim_eq

end Text

section Width

variable {text : List Char} {w : Width} {c : Char}

theorem decimalDigit_iff_toNat : DecimalDigit c ↔ 48 ≤ c.toNat ∧ c.toNat ≤ 57 := by
  simp only [DecimalDigit, Char.le_def, UInt32.le_iff_toNat_le]
  rfl

theorem digit?_decimal (c : Char) :
    Radix.decimal.digit? c = if DecimalDigit c then some (decimalWeight c) else none := by
  rw [Radix.digit?, Radix.digitValue?, decimalWeight]
  by_cases digit : DecimalDigit c
  · have code := decimalDigit_iff_toNat.1 digit
    have small : c.toNat - 48 < 10 := by omega
    rw [if_pos digit, if_pos code]
    simp [Option.filter, Radix.size, small]
  · rw [if_neg digit, if_neg (decimalDigit_iff_toNat.not.1 digit)]
    have letter : ∀ n, 10 ≤ n → (some n).filter (· < Radix.decimal.size) = none := fun n h => by
      have tooGreat : decide (n < Radix.decimal.size) = false := decide_eq_false (Nat.not_lt.2 h)
      rw [Option.filter, tooGreat]
      rfl
    split
    · exact letter _ (by omega)
    · split
      · exact letter _ (by omega)
      · rfl

theorem isDigit_decimal_iff : Radix.decimal.isDigit c = true ↔ DecimalDigit c := by
  rw [Radix.isDigit, digit?_decimal]
  split <;> simp [*]

theorem read?_decimal_eq_some_iff {n : Nat} : Radix.decimal.read? text = some n ↔
    text ≠ [] ∧ (∀ c ∈ text, DecimalDigit c) ∧ decimalValue text = n := by
  simp only [Radix.read?_eq_some_iff, isDigit_decimal_iff]
  refine and_congr_right fun filled => and_congr_right fun inside => ?_
  have value : Radix.decimal.value text = decimalValue text :=
    Radix.value_eq_ofDigits fun c hc => by rw [digit?_decimal, if_pos (inside c hc)]
  rw [value]

theorem dropPlus_of_decimalDigit (inside : ∀ c ∈ text, DecimalDigit c) : dropPlus text = text := by
  unfold dropPlus
  split
  · next rest => exact absurd (inside '+' List.mem_cons_self) (by decide)
  · rfl

theorem exists_sign (text : List Char) :
    ∃ sign, (sign = [] ∨ sign = ['+']) ∧ text = sign ++ dropPlus text := by
  unfold dropPlus
  split
  · exact ⟨['+'], .inr rfl, rfl⟩
  · exact ⟨[], .inl rfl, rfl⟩

/-- The digits of a width are what is left when the sign is dropped. -/
theorem Width.spells_iff : Spells text w ↔ Radix.decimal.read? (dropPlus text) = some w.bits := by
  rw [read?_decimal_eq_some_iff]
  constructor
  · rintro @⟨sign, digits, plus, filled, inside, value, rfl⟩
    have dropped : dropPlus (sign ++ digits) = digits := by
      rcases plus with rfl | rfl
      · exact dropPlus_of_decimalDigit inside
      · rfl
    rw [dropped]
    exact ⟨filled, inside, value⟩
  · rintro ⟨filled, inside, value⟩
    obtain ⟨sign, plus, whole⟩ := exists_sign text
    exact .intro plus filled inside value whole

theorem Width.read?_eq_some_iff : read? text = some w ↔ ∃ core, Text.Padded text core ∧ Spells core w := by
  rw [read?, Option.bind_eq_some_iff]
  simp only [ofNat?_eq_some_iff, spells_iff, ← Text.trim_eq_iff]
  constructor
  · rintro ⟨n, read, rfl⟩
    exact ⟨_, rfl, read⟩
  · rintro ⟨core, rfl, read⟩
    exact ⟨_, read, rfl⟩

theorem isBlank_of_decimalDigit (h : DecimalDigit c) : Text.isBlank c = false :=
  Document.isBlank_of_hexDigit (.inl h)

theorem decimalDigit_of_mem_write {n : Nat} (h : c ∈ Radix.decimal.write n) : DecimalDigit c :=
  isDigit_decimal_iff.1 (Radix.isDigit_of_mem_write h)

/-- The numeral of a width spells it. -/
theorem Width.spells_write (w : Width) : Spells (Radix.decimal.write w.bits) w := by
  rw [spells_iff, dropPlus_of_decimalDigit fun c => decimalDigit_of_mem_write, Radix.read?_write]

end Width

namespace Format

variable {text base span : List Char} {f : Format}

theorem isSeparator_iff {c : Char} : isSeparator c = true ↔ Separates c := by
  simp [isSeparator, Separates, or_assoc]

theorem splitAtSeparator?_eq_some_iff : splitAtSeparator? text = some (base, span) ↔
    ∃ separator, Separates separator ∧ (∀ c ∈ base, ¬ Separates c) ∧
      text = base ++ separator :: span := by
  have other : ∀ c, (!isSeparator c) = true ↔ ¬ Separates c := fun c => by
    rw [Bool.not_eq_true', ← Bool.not_eq_true, isSeparator_iff]
  constructor
  · intro h
    unfold splitAtSeparator? at h
    split at h
    · cases h
    · next separator after found =>
      cases h
      have stop := List.head?_dropWhile_not (!isSeparator ·) text
      rw [found] at stop
      refine ⟨separator, isSeparator_iff.1 (by simpa using stop), ?_, ?_⟩
      · intro c hc
        exact (other c).1 (List.mem_takeWhile_imp (p := (!isSeparator ·)) hc)
      · rw [← found, List.takeWhile_append_dropWhile]
  · rintro ⟨separator, separates, first, rfl⟩
    have before : ∀ c ∈ base, (!isSeparator c) = true := fun c hc => (other c).2 (first c hc)
    have stop : (!isSeparator separator) = false := by simp [isSeparator_iff.2 separates]
    rw [splitAtSeparator?, List.dropWhile_append_of_pos before, List.takeWhile_append_of_pos before,
      List.dropWhile_cons_of_neg (by simp [stop]), List.takeWhile_cons_of_neg (by simp [stop]),
      List.append_nil]

/-- A text is read as the format that it spells. -/
theorem read?_eq_some_iff : read? text = some f ↔ Spells text f := by
  simp only [read?, Option.bind_eq_bind, Option.bind_eq_some_iff, Option.pure_def,
    Option.some.injEq, Prod.exists]
  constructor
  · rintro ⟨left, right, split, w, base, v, span, rfl⟩
    obtain ⟨separator, separates, first, core_eq⟩ := splitAtSeparator?_eq_some_iff.1 split
    obtain ⟨baseCore, base_padded, base_spells⟩ := Width.read?_eq_some_iff.1 base
    obtain ⟨spanCore, span_padded, span_spells⟩ := Width.read?_eq_some_iff.1 span
    exact .intro (Text.padded_trim text) core_eq separates first base_padded base_spells span_padded
      span_spells
  · rintro @⟨core, left, right, base, span, separator, padded, core_eq, separates, first,
      base_padded, base_spells, span_padded, span_spells⟩
    have split : splitAtSeparator? (Text.trim text) = some (left, right) := by
      rw [padded.trim_eq]
      exact splitAtSeparator?_eq_some_iff.2 ⟨separator, separates, first, core_eq⟩
    exact ⟨left, right, split, f.base, Width.read?_eq_some_iff.2 ⟨base, base_padded, base_spells⟩,
      f.span, Width.read?_eq_some_iff.2 ⟨span, span_padded, span_spells⟩, rfl⟩

theorem parse_eq_ok_iff {s : String} : parse s = .ok f ↔ Spells s.toList f := by
  rw [← read?_eq_some_iff, parse]
  cases read? s.toList <;> simp

theorem parse_eq_error_iff {s : String} {e : Error} :
    parse s = .error e ↔ (∀ f, ¬ Spells s.toList f) ∧ e = .invalidFormat s := by
  simp only [← read?_eq_some_iff, parse]
  cases read? s.toList with
  | none => simp [eq_comm]
  | some f => simp

/-- The text of a format spells it. -/
theorem spells_text (f : Format) : Spells f.text.toList f := by
  have text_eq : f.text.toList =
      Radix.decimal.write f.base.bits ++ 'x' :: Radix.decimal.write f.span.bits := by
    simp [text, textOfBits, decimal]
  have solid : ∀ n, ∀ c ∈ Radix.decimal.write n, Text.isBlank c = false := fun n c hc =>
    isBlank_of_decimalDigit (decimalDigit_of_mem_write hc)
  have whole : ∀ c ∈ f.text.toList, Text.isBlank c = false := by
    rw [text_eq, List.forall_mem_append, List.forall_mem_cons]
    exact ⟨solid _, by decide, solid _⟩
  refine .intro (Text.padded_self whole) text_eq (.inl rfl) ?_ (Text.padded_self (solid _))
    f.base.spells_write (Text.padded_self (solid _)) f.span.spells_write
  intro c hc
  have digit := decimalDigit_of_mem_write hc
  rintro (rfl | rfl | rfl)
  · exact absurd digit (by decide)
  · exact absurd digit (by decide)
  · exact absurd digit (by decide)

/-- A text is read as a format exactly when it spells that format, and any text that spells none is
refused as it stands. The text of a format is read as that format. -/
theorem parse_follows_spelling :
    (∀ (s : String) (f : Format), parse s = .ok f ↔ Spells s.toList f) ∧
      (∀ (s : String) (e : Error),
        parse s = .error e ↔ (∀ f, ¬ Spells s.toList f) ∧ e = .invalidFormat s) ∧
      ∀ f : Format, parse f.text = .ok f :=
  ⟨fun _ _ => parse_eq_ok_iff, fun _ _ => parse_eq_error_iff,
    fun f => parse_eq_ok_iff.2 (spells_text f)⟩

example : parse " +008 X 0032\t" = .ok ⟨⟨8, by decide, by decide⟩, ⟨32, by decide, by decide⟩⟩ := by
  cbv

end Format

end RangeLookup
