import Mathlib.Data.List.TakeWhile
import RangeLookup.Document.Grammar
import RangeLookup.Document.Spelling
import RangeLookup.Proofs.Numeral

/-!
# Numbers are read by their rule

A text has at most one way to start with a number, and that number is what is read if it fits a word
(`number?_of_number`, `number?_eq_some_iff`).

Digits are compared first, one character at a time (`digit?_eq`), and then runs of them
(`value_eq_positional`). Where a run ends is settled by the character behind it, so that no run is a
part of a longer one.
-/

namespace RangeLookup.Document

section Digits

variable {c : Char} {digits rest : List Char}

theorem hexDigit_iff_toNat : HexDigit c ↔ 48 ≤ c.toNat ∧ c.toNat ≤ 57 ∨
    97 ≤ c.toNat ∧ c.toNat ≤ 102 ∨ 65 ≤ c.toNat ∧ c.toNat ≤ 70 := by
  simp only [HexDigit, Char.le_def, UInt32.le_iff_toNat_le]
  rfl

/-- What holds of the characters of a table holds of every character whose code it reaches. -/
theorem of_table (p : Char → Prop) {bound : Nat} (table : ∀ n < bound, p (Char.ofNat n))
    (code : c.toNat < bound) : p c := by
  have here := table c.toNat code
  rwa [Char.ofNat_toNat] at here

theorem digit?_eq (c : Char) :
    Radix.hexadecimal.digit? c = if HexDigit c then some (weight c) else none := by
  by_cases digit : HexDigit c
  · -- the last digit is `f`, whose code is 102, so a table up to there is enough
    have table : ∀ n < 103, HexDigit (Char.ofNat n) →
        Radix.hexadecimal.digit? (Char.ofNat n) = some (weight (Char.ofNat n)) := by decide
    have code := hexDigit_iff_toNat.1 digit
    have here := of_table
      (fun d => HexDigit d → Radix.hexadecimal.digit? d = some (weight d)) table (c := c) (by omega)
    rw [if_pos digit, here digit]
  · have none : Radix.digitValue? c = none := by
      rw [hexDigit_iff_toNat] at digit
      rw [Radix.digitValue?, if_neg (by omega), if_neg (by omega), if_neg (by omega)]
    rw [if_neg digit, Radix.digit?, none, Option.filter_none]

theorem isDigit_iff : Radix.hexadecimal.isDigit c = true ↔ HexDigit c := by
  rw [Radix.isDigit, digit?_eq]
  split <;> simp [*]

theorem isDigit_eq_false_iff : Radix.hexadecimal.isDigit c = false ↔ ¬ HexDigit c := by
  rw [← isDigit_iff, Bool.not_eq_true]

theorem value_eq_positional (inside : ∀ c ∈ digits, HexDigit c) :
    Radix.hexadecimal.value digits = positional digits :=
  Radix.value_eq_ofDigits fun c hc => by rw [digit?_eq, if_pos (inside c hc)]

theorem isBlank_of_hexDigit (h : HexDigit c) : Text.isBlank c = false := by
  rw [Bool.eq_false_iff]
  intro blank
  obtain ⟨range, listed, low, high⟩ := Text.CodeRanges.has_iff.1 blank
  rw [hexDigit_iff_toNat] at h
  simp only [Text.blanks, List.mem_cons, List.not_mem_nil, or_false] at listed
  rcases listed with rfl | rfl | rfl | rfl | rfl | rfl | rfl | rfl | rfl | rfl <;>
    simp only at low high <;> omega

namespace Run

theorem takeWhile_eq (run : Run digits rest) :
    (digits ++ rest).takeWhile Radix.hexadecimal.isDigit = digits := by
  rw [List.takeWhile_append_of_pos fun c hc => isDigit_iff.2 (run.inside c hc)]
  cases rest with
  | nil => rw [List.takeWhile_nil, List.append_nil]
  | cons c more =>
    have stop := isDigit_eq_false_iff.2 (run.ended c rfl)
    rw [List.takeWhile_cons_of_neg (by simp [stop]), List.append_nil]

theorem dropWhile_eq (run : Run digits rest) :
    (digits ++ rest).dropWhile Radix.hexadecimal.isDigit = rest := by
  rw [List.dropWhile_append_of_pos fun c hc => isDigit_iff.2 (run.inside c hc)]
  cases rest with
  | nil => rfl
  | cons c more =>
    have stop := isDigit_eq_false_iff.2 (run.ended c rfl)
    rw [List.dropWhile_cons_of_neg (by simp [stop])]

/-- The digits at the start of a text are a run, if there are any. -/
theorem of_takeWhile {text : List Char} (filled : text.takeWhile Radix.hexadecimal.isDigit ≠ []) :
    Run (text.takeWhile Radix.hexadecimal.isDigit) (text.dropWhile Radix.hexadecimal.isDigit) where
  filled := filled
  inside c hc := isDigit_iff.1 (List.mem_takeWhile_imp hc)
  ended c hc := by
    have stop := List.head?_dropWhile_not Radix.hexadecimal.isDigit text
    rw [hc] at stop
    exact isDigit_eq_false_iff.1 stop

end Run

end Digits

section Number

variable {text rest more : List Char} {n m : Nat} {v : UInt32}

theorem dropMarker_marker {x d : Char} (marker : MarkerEnd x) (digit : HexDigit d) :
    dropMarker ('0' :: x :: d :: more) = d :: more := by
  rw [dropMarker, if_pos ⟨marker, isDigit_iff.2 digit⟩]

theorem dropMarker_of_not_marked (h : ¬ Marked text) : dropMarker text = text := by
  unfold dropMarker
  split
  · next x d rest =>
    rw [if_neg]
    rintro ⟨marker, digit⟩
    exact h ⟨x, d, rest, marker, isDigit_iff.1 digit, rfl⟩
  · rfl

/-- What a number leaves of its text when the marker is dropped. -/
theorem Number.dropMarker_eq (h : Number text n rest) :
    ∃ digits, dropMarker text = digits ++ rest ∧ Run digits rest ∧ positional digits = n := by
  cases h with
  | @marked x digits marker run value text_eq =>
    obtain ⟨d, others, rfl⟩ := List.exists_cons_of_ne_nil run.filled
    rw [text_eq]
    exact ⟨d :: others, dropMarker_marker marker (run.inside d List.mem_cons_self), run, value⟩
  | @plain digits unmarked run value text_eq =>
    refine ⟨digits, ?_, run, value⟩
    rw [dropMarker_of_not_marked unmarked, text_eq]

/-- A run of digits behind the marker, if there is one, makes a number. -/
theorem number_of_dropMarker {digits : List Char} (run : Run digits rest)
    (h : dropMarker text = digits ++ rest) : Number text (positional digits) rest := by
  by_cases marked : Marked text
  · obtain ⟨x, d, more, marker, digit, rfl⟩ := marked
    rw [dropMarker_marker marker digit] at h
    exact .marked marker run rfl (by rw [h])
  · rw [dropMarker_of_not_marked marked] at h
    exact .plain marked run rfl h

/-- A text starts with one number at most. -/
theorem Number.unique (h : Number text n rest) (h' : Number text m more) : n = m ∧ rest = more := by
  obtain ⟨digits, dropped, run, rfl⟩ := h.dropMarker_eq
  obtain ⟨others, dropped', run', rfl⟩ := h'.dropMarker_eq
  have same : digits ++ rest = others ++ more := dropped.symm.trans dropped'
  have taken := congrArg (List.takeWhile Radix.hexadecimal.isDigit) same
  have left := congrArg (List.dropWhile Radix.hexadecimal.isDigit) same
  rw [run.takeWhile_eq, run'.takeWhile_eq] at taken
  rw [run.dropWhile_eq, run'.dropWhile_eq] at left
  exact ⟨congrArg positional taken, left⟩

/-- The number that a text starts with is read, unless it is too great for a word. -/
theorem number?_of_number (h : Number text n rest) :
    number? text = if n < 4294967296 then some (UInt32.ofNat n, rest) else none := by
  obtain ⟨digits, dropped, run, rfl⟩ := h.dropMarker_eq
  have filled : digits.isEmpty = false := by simp [run.filled]
  unfold number?
  simp only [dropped, run.takeWhile_eq, run.dropWhile_eq, filled, value_eq_positional run.inside,
    Bool.not_false, Bool.true_and, decide_eq_true_eq]

theorem number?_eq_some_iff : number? text = some (v, rest) ↔ Number text v.toNat rest := by
  constructor
  · intro h
    unfold number? at h
    simp only [Bool.and_eq_true, Bool.not_eq_true', List.isEmpty_eq_false_iff,
      decide_eq_true_eq] at h
    split at h
    · next fits =>
      obtain ⟨filled, word⟩ := fits
      have run := Run.of_takeWhile filled
      have number := number_of_dropMarker run List.takeWhile_append_dropWhile.symm
      cases h
      rw [value_eq_positional run.inside] at word ⊢
      rw [UInt32.toNat_ofNat_of_lt' word]
      exact number
    · cases h
  · intro h
    rw [number?_of_number h, if_pos v.toNat_lt, UInt32.ofNat_toNat]

theorem number?_eq_none_iff : number? text = none ↔ ∀ (v : UInt32) rest, ¬ Number text v.toNat rest := by
  rw [Option.eq_none_iff_forall_not_mem, Prod.forall]
  exact forall₂_congr fun v rest => not_congr number?_eq_some_iff

/-- A text starts with a number exactly when it starts with a digit. -/
theorem exists_number_iff : (∃ n rest, Number text n rest) ↔ ∃ c ∈ text.head?, HexDigit c := by
  constructor
  · rintro ⟨n, rest, number⟩
    cases number with
    | marked marker run value text_eq =>
      rw [text_eq]
      exact ⟨'0', rfl, by decide⟩
    | @plain digits unmarked run value text_eq =>
      obtain ⟨d, others, rfl⟩ := List.exists_cons_of_ne_nil run.filled
      rw [text_eq]
      exact ⟨d, rfl, run.inside d List.mem_cons_self⟩
  · rintro ⟨c, first, digit⟩
    obtain ⟨d, others, dropped, digit'⟩ : ∃ d others, dropMarker text = d :: others ∧ HexDigit d := by
      by_cases marked : Marked text
      · obtain ⟨x, d, more, marker, follows, rfl⟩ := marked
        exact ⟨d, more, dropMarker_marker marker follows, follows⟩
      · obtain ⟨others, rfl⟩ := List.head?_eq_some_iff.1 first
        exact ⟨c, others, dropMarker_of_not_marked marked, digit⟩
    have filled : (dropMarker text).takeWhile Radix.hexadecimal.isDigit ≠ [] := by
      rw [dropped, List.takeWhile_cons_of_pos (isDigit_iff.2 digit')]
      exact List.cons_ne_nil _ _
    have run := Run.of_takeWhile filled
    exact ⟨_, _, number_of_dropMarker run List.takeWhile_append_dropWhile.symm⟩

end Number

section Append

variable {text digits rest tail : List Char} {n : Nat}

/-- The text neither extends a run of digits nor completes a marker. -/
def Inert (tail : List Char) : Prop := ∀ c ∈ tail.head?, ¬ HexDigit c ∧ ¬ MarkerEnd c

theorem Run.append (run : Run digits rest) (inert : Inert tail) : Run digits (rest ++ tail) where
  filled := run.filled
  inside := run.inside
  ended := by
    cases rest with
    | nil => exact fun c first => (inert c first).1
    | cons d more => exact run.ended

theorem not_marked_append (h : ¬ Marked text) (filled : text ≠ []) (inert : Inert tail) :
    ¬ Marked (text ++ tail) := by
  rintro ⟨x, d, more, marker, digit, whole⟩
  match text, filled with
  | [c], _ =>
    -- the character behind the zero would be the first of the tail
    obtain ⟨-, rfl⟩ := List.cons.inj whole
    exact (inert x rfl).2 marker
  | [c, e], _ =>
    obtain ⟨-, whole⟩ := List.cons.inj whole
    obtain ⟨-, rfl⟩ := List.cons.inj whole
    exact (inert d rfl).1 digit
  | c :: e :: f :: others, _ =>
    simp only [List.cons_append, List.cons.injEq] at whole
    obtain ⟨rfl, rfl, rfl, -⟩ := whole
    exact h ⟨e, f, others, marker, digit, rfl⟩

/-- What neither extends a run of digits nor completes a marker leaves a number as it is. -/
theorem Number.append (h : Number text n rest) (inert : Inert tail) :
    Number (text ++ tail) n (rest ++ tail) := by
  cases h with
  | marked marker run value text_eq =>
    exact .marked marker (run.append inert) value (by simp [text_eq])
  | plain unmarked run value text_eq =>
    have filled : text ≠ [] := by simp [text_eq, run.filled]
    exact .plain (not_marked_append unmarked filled inert) (run.append inert) value
      (by simp [text_eq])

/-- Such a text does not make a number out of none either. -/
theorem number?_append (inert : Inert tail) :
    (number? (text ++ tail)).map (·.1) = (number? text).map (·.1) := by
  by_cases starts : ∃ n rest, Number text n rest
  · obtain ⟨n, rest, number⟩ := starts
    rw [number?_of_number number, number?_of_number (number.append inert)]
    split <;> rfl
  · have before : number? text = none :=
      number?_eq_none_iff.2 fun v rest number => starts ⟨v.toNat, rest, number⟩
    have after : number? (text ++ tail) = none := by
      rw [number?_eq_none_iff]
      intro v rest number
      obtain ⟨c, first, digit⟩ := exists_number_iff.1 ⟨v.toNat, rest, number⟩
      cases text with
      | nil => exact (inert c first).1 digit
      | cons d more => exact starts (exists_number_iff.2 ⟨c, first, digit⟩)
    rw [before, after]

end Append

end RangeLookup.Document
