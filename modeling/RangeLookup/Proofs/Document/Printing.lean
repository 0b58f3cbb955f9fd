import RangeLookup.Proofs.Document.Canonical
import RangeLookup.Proofs.Document.Encoding
import RangeLookup.Proofs.Document.Line

/-!
# Printed ranges are read back

Ranges that are printed one a line are read back as they are (`read_printed`). However a number is
spelled, its spelling starts with that number and with no longer one (`number_of_spells`), so that a
printed line stands for its range (`standsFor_of_prints`). The line may lose a carriage return to
its line feed on the way: if so the carriage return belongs to the remark (`Prints.dropReturn`).
-/

namespace RangeLookup.Document

section Spelling

variable {c : Char} {text rest line : List Char} {n : Nat} {r : Interval}

theorem hexDigit_toUpper_iff : HexDigit c.toUpper ↔ HexDigit c := by
  by_cases lower : c.isLower = true
  · have table : ∀ n < 123, HexDigit (Char.ofNat n).toUpper ↔ HexDigit (Char.ofNat n) := by decide
    have code : c.toNat ≤ 122 := by
      rw [Char.isLower.eq_1, Bool.and_eq_true, decide_eq_true_eq, decide_eq_true_eq] at lower
      exact UInt32.le_iff_toNat_le.1 lower.2
    exact of_table (fun d => HexDigit d.toUpper ↔ HexDigit d) table (Nat.lt_succ_of_le code)
  · rw [Char.toUpper_eq_of_not_isLower lower]

theorem digit?_toUpper (c : Char) :
    Radix.hexadecimal.digit? c.toUpper = Radix.hexadecimal.digit? c := by
  have same : weight c.toUpper = weight c := by
    rw [weight, weight, Char.toLower_toUpper_eq_toLower]
  rw [digit?_eq, digit?_eq, same]
  exact if_congr hexDigit_toUpper_iff rfl rfl

theorem value_map_toUpper (digits : List Char) :
    Radix.hexadecimal.value (digits.map Char.toUpper) = Radix.hexadecimal.value digits := by
  simp only [Radix.value, List.foldl_map, digit?_toUpper]

/-- The digits of a spelling are a run, whatever stands behind them that is no digit. -/
theorem run_of_write (zeros : Nat) {digits : List Char}
    (numeral : digits.map Char.toUpper = Radix.hexadecimal.write n)
    (ended : ∀ c ∈ rest.head?, ¬ HexDigit c) :
    Run (List.replicate zeros '0' ++ digits) rest ∧
      positional (List.replicate zeros '0' ++ digits) = n := by
  have inside : ∀ c ∈ List.replicate zeros '0' ++ digits, HexDigit c := by
    intro c hc
    rcases List.mem_append.1 hc with zero | digit
    · rw [List.eq_of_mem_replicate zero]
      exact isDigit_iff.1 (by decide)
    · have upper : c.toUpper ∈ Radix.hexadecimal.write n := numeral ▸ List.mem_map_of_mem digit
      exact hexDigit_toUpper_iff.1 (isDigit_iff.1 (Radix.isDigit_of_mem_write upper))
  have filled : digits ≠ [] := by
    rintro rfl
    exact Radix.write_ne_nil _ _ numeral.symm
  refine ⟨⟨by simp [filled], inside, ended⟩, ?_⟩
  rw [← value_eq_positional inside, Radix.value_zeros_append, ← value_map_toUpper, numeral,
    Radix.value_write]

/-- Digits are not taken for a marker: the second of them would have to be an `x`. -/
theorem not_marked_of_run {digits : List Char} (run : Run digits rest)
    (unmarked : ∀ c ∈ rest.head?, ¬ MarkerEnd c) : ¬ Marked (digits ++ rest) := by
  rintro ⟨x, d, more, marker, -, whole⟩
  match digits, run.filled with
  | [_], _ =>
    obtain ⟨-, rfl⟩ := List.cons.inj whole
    exact unmarked x rfl marker
  | _ :: e :: _, _ =>
    obtain ⟨-, whole⟩ := List.cons.inj whole
    obtain ⟨rfl, -⟩ := List.cons.inj whole
    have digit := isDigit_iff.2 (run.inside e (by simp))
    rcases marker with rfl | rfl <;> exact absurd digit (by decide)

/-- However a number is spelled, the spelling starts with it and with no longer one. -/
theorem number_of_spells (h : Spells text n) (inert : Inert rest) : Number (text ++ rest) n rest := by
  obtain ⟨marker, listed, zeros, digits, numeral, rfl⟩ := h
  obtain ⟨run, value⟩ := run_of_write zeros numeral fun c first => (inert c first).1
  simp only [markers, List.mem_cons, List.not_mem_nil, or_false] at listed
  rcases listed with rfl | rfl | rfl
  · exact .plain (not_marked_of_run run fun c first => (inert c first).2) run value rfl
  · exact .marked (.inl rfl) run value (List.append_assoc _ _ _)
  · exact .marked (.inr rfl) run value (List.append_assoc _ _ _)

theorem ne_nil_of_spells (h : Spells text n) : text ≠ [] := by
  rintro rfl
  obtain ⟨c, first, -⟩ := exists_number_iff.1 ⟨n, [], number_of_spells h nofun⟩
  cases first

theorem mem_of_spells (h : Spells text n) (hc : c ∈ text) : HexDigit c ∨ MarkerEnd c := by
  obtain ⟨marker, listed, zeros, digits, numeral, rfl⟩ := h
  have ended : ∀ c ∈ ([] : List Char).head?, ¬ HexDigit c := nofun
  obtain ⟨run, -⟩ := run_of_write zeros numeral ended
  have zero : HexDigit '0' := isDigit_iff.1 (by decide)
  rcases List.mem_append.1 hc with front | digit
  · simp only [markers, List.mem_cons, List.not_mem_nil, or_false] at listed
    rcases listed with rfl | rfl | rfl
    · cases front
    all_goals
      simp only [List.mem_cons, List.not_mem_nil, or_false] at front
      rcases front with rfl | rfl
      · exact .inl zero
      · exact .inr (by decide)
  · exact .inl (run.inside c digit)

theorem not_mem_of_spells (h : Spells text n) (digit : Radix.hexadecimal.isDigit c = false)
    (marker : ¬ MarkerEnd c) : c ∉ text := by
  intro hc
  rcases mem_of_spells h hc with inside | inside
  · exact isDigit_eq_false_iff.1 digit inside
  · exact marker inside

end Spelling

section Line

variable {line : List Char} {r : Interval}

/-- A printed line stands for its range. -/
theorem gives_of_prints (h : Prints line r) : Gives line r := by
  obtain ⟨blank, -, lower, upper, apart, -, rfl⟩ := h
  have behind : Inert _ := fun c first => by
    rw [apart c first]
    exact ⟨isDigit_eq_false_iff.1 (by decide), by decide⟩
  have dots : ∀ rest, Inert ('.' :: rest) := fun rest c first => by
    cases first
    exact ⟨isDigit_eq_false_iff.1 (by decide), by decide⟩
  exact .range ⟨_, _, rfl, blank, number_of_spells lower (dots _)⟩
    ⟨_, _, rfl, number_of_spells upper behind⟩

/-- A line stays printed when it loses the carriage return at its end. -/
theorem Prints.dropReturn (h : Prints line r) :
    Prints (if line.getLast? = some '\r' then line.dropLast else line) r := by
  split
  · next carriage =>
    obtain @⟨lead, low, high, remark, blank, unbroken, lower, upper, apart, feedless, line_eq⟩ := h
    rcases List.eq_nil_or_concat remark with rfl | ⟨front, c, rfl⟩
    · -- without a remark the last character is a digit
      exfalso
      have split : line = (lead ++ (low ++ ['.', '.'])) ++ high := by simp [line_eq]
      rw [split, List.getLast?_append_of_ne_nil _ (ne_nil_of_spells upper)] at carriage
      exact not_mem_of_spells upper (by decide) (by decide) (List.mem_of_getLast? carriage)
    · rw [List.concat_eq_append] at line_eq apart feedless
      have split : line = lead ++ (low ++ '.' :: '.' :: (high ++ front)) ++ [c] := by simp [line_eq]
      rw [split, List.dropLast_concat]
      refine .intro blank unbroken lower upper (fun d first => apart d ?_) ?_ rfl
      · exact List.mem_head?_append_of_mem_head? first
      · exact fun feed => feedless (List.mem_append_left _ feed)
  · exact h

theorem Prints.feed_not_mem (h : Prints line r) : '\n' ∉ line := by
  obtain ⟨blank, unbroken, lower, upper, apart, feedless, rfl⟩ := h
  have digit : Radix.hexadecimal.isDigit '\n' = false := by decide
  have inLow := not_mem_of_spells lower digit (by decide)
  have inHigh := not_mem_of_spells upper digit (by decide)
  simp [unbroken, inLow, inHigh, feedless]

theorem standsFor_of_prints (h : Prints line r) :
    StandsFor (Document.dropReturn (encode line)) r := by
  rw [dropReturn_encode]
  refine ⟨_, decode?_encode _, ?_⟩
  rw [String.toList_ofList]
  exact range?_of_gives (gives_of_prints h.dropReturn)

end Line

section Read

variable {ceiling : Nat} {ranges : List Interval} {s : RangeStore} {texts : List (List Char)}

theorem feed_not_mem_of_prints (printed : List.Forall₂ Prints texts ranges) :
    ∀ text ∈ texts, '\n' ∉ text := by
  induction printed with
  | nil => nofun
  | cons first _ ih => exact List.forall_mem_cons.2 ⟨first.feed_not_mem, ih⟩

/-- Ranges that are printed one a line, in order, are read back as they are under every ceiling that
has room for them, however their bounds are spelled and whatever blanks and remarks stand around
them. -/
theorem read_printed (printed : List.Forall₂ Prints texts s.toList) (room : s.size ≤ ceiling) :
    read (ofLines texts) ceiling = .ok s := by
  apply read_of_standsFor _ room
  rw [lines_ofLines (feed_not_mem_of_prints printed), List.forall₂_map_left_iff]
  exact printed.imp fun _ _ h => standsFor_of_prints h

/-- Two ranges, the second of which ends with the last word. -/
def upToLast : RangeStore := ⟨#[⟨0xA0, 0xFF⟩, ⟨0x1F600, 0xFFFFFFFF⟩], by decide⟩

/-- Their lines: with markers, zeros, letters of either case, a remark and a carriage return. -/
def upToLastLines : List (List Char) :=
  ["\u3000\t0X00a0..0xfF".toList, "  1f600..FFFFffff  é..0\r".toList]

theorem prints_upToLast : List.Forall₂ Prints upToLastLines upToLast.toList := by
  have first : Prints "\u3000\t0X00a0..0xfF".toList ⟨0xA0, 0xFF⟩ := by
    have blank : "\u3000\t".toList.all Text.isBlank = true := by decide
    have lower : Spells "0X00a0".toList 0xA0 :=
      ⟨['0', 'X'], by decide, 2, ['a', '0'], by cbv, by decide⟩
    have upper : Spells "0xfF".toList 0xFF :=
      ⟨['0', 'x'], by decide, 0, ['f', 'F'], by cbv, by decide⟩
    have whole : "\u3000\t0X00a0..0xfF".toList =
        "\u3000\t".toList ++ ("0X00a0".toList ++ '.' :: '.' :: ("0xfF".toList ++ [])) := by decide
    exact .intro (List.all_eq_true.1 blank) (by decide) lower upper (by simp) (by decide) whole
  have second : Prints "  1f600..FFFFffff  é..0\r".toList ⟨0x1F600, 0xFFFFFFFF⟩ := by
    have blank : "  ".toList.all Text.isBlank = true := by decide
    have lower : Spells "1f600".toList 0x1F600 :=
      ⟨[], by decide, 0, "1f600".toList, by cbv, by decide⟩
    have upper : Spells "FFFFffff".toList 0xFFFFFFFF :=
      ⟨[], by decide, 0, "FFFFffff".toList, by cbv, by decide⟩
    have whole : "  1f600..FFFFffff  é..0\r".toList =
        "  ".toList ++ ("1f600".toList ++ '.' :: '.' :: ("FFFFffff".toList ++ "  é..0\r".toList)) := by
      decide
    exact .intro (List.all_eq_true.1 blank) (by decide) lower upper (by simp) (by decide) whole
  exact .cons first (.cons second .nil)

theorem read_printed_upToLast :
    List.Forall₂ Prints upToLastLines upToLast.toList ∧ upToLast.size ≤ 2 ∧
      read (ofLines upToLastLines) 2 = .ok upToLast :=
  ⟨prints_upToLast, by decide, read_printed prints_upToLast (by decide)⟩

end Read

end RangeLookup.Document
