import RangeLookup.Proofs.Document.Number

/-!
# What a line gives

Reading a line comes down to the number it opens with (`range?_eq_some_iff`), and its upper bound to
the number behind two dots. A line whose upper bound fits a word is read by the rules of the
notation and by nothing else, and a remark behind it does not matter (`line_follows_rules`).

An upper bound that does not fit a word is a different matter. It is not told from one that is absent:
the line is read as its lower bound alone, and no error comes of it (`upper_bound_kept_iff`). A lower
bound that does not fit is refused.
-/

namespace RangeLookup.Document

variable {line text rest tail : List Char} {low : UInt32} {n : Nat} {r : Interval}

theorem opens_iff : Opens line n rest ↔ Number (Text.trimStart line) n rest := by
  constructor
  · rintro ⟨lead, text, rfl, blank, number⟩
    obtain ⟨c, first, digit⟩ := exists_number_iff.1 ⟨n, rest, number⟩
    obtain ⟨more, rfl⟩ := List.head?_eq_some_iff.1 first
    rw [Text.trimStart_append_blanks blank, Text.trimStart_of_not_isBlank (isBlank_of_hexDigit digit)]
    exact number
  · intro number
    exact ⟨line.takeWhile Text.isBlank, Text.trimStart line, List.takeWhile_append_dropWhile.symm,
      fun c hc => List.mem_takeWhile_imp hc, number⟩

theorem range?_eq_some_iff : range? line = some r ↔
    ∃ (low : UInt32) (rest : List Char), Opens line low.toNat rest ∧
      ⟨low, (upperBound? rest).getD low⟩ = r := by
  simp only [range?, Option.bind_eq_bind, Option.bind_eq_some_iff, Prod.exists, opens_iff,
    number?_eq_some_iff, Option.pure_def, Option.some.injEq]

theorem range?_of_opens (h : Opens line low.toNat rest) :
    range? line = some ⟨low, (upperBound? rest).getD low⟩ :=
  range?_eq_some_iff.2 ⟨low, rest, h, rfl⟩

theorem range?_eq_none_iff :
    range? line = none ↔ ∀ (low : UInt32) rest, ¬ Opens line low.toNat rest := by
  rw [Option.eq_none_iff_forall_ne_some]
  constructor
  · intro h low rest opens
    exact h _ (range?_of_opens opens)
  · intro h r found
    obtain ⟨low, rest, opens, -⟩ := range?_eq_some_iff.1 found
    exact h low rest opens

section UpperBound

theorem upperBound?_of_upperBound (h : UpperBound text n) :
    upperBound? text = if n < 4294967296 then some (UInt32.ofNat n) else none := by
  obtain ⟨tail, rest, rfl, number⟩ := h
  show (number? tail).map (·.1) = _
  rw [number?_of_number number]
  split <;> rfl

theorem upperBound?_eq_none (alone : ∀ n, ¬ UpperBound text n) : upperBound? text = none := by
  unfold upperBound?
  split
  · next tail =>
    rw [Option.map_eq_none_iff, number?_eq_none_iff]
    intro v rest number
    exact alone v.toNat ⟨tail, rest, rfl, number⟩
  · rfl

theorem UpperBound.unique {m : Nat} (h : UpperBound text n) (h' : UpperBound text m) : n = m := by
  obtain ⟨tail, rest, rfl, number⟩ := h
  obtain ⟨tail', rest', same, number'⟩ := h'
  cases same
  exact (number.unique number').1

/-- A text that goes on with neither digits nor a marker nor dots leaves an upper bound as it is. -/
theorem upperBound?_append (inert : Inert tail) (dotless : ∀ c ∈ tail.head?, c ≠ '.') :
    upperBound? (text ++ tail) = upperBound? text := by
  by_cases dots : ∃ more, text = '.' :: '.' :: more
  · obtain ⟨more, rfl⟩ := dots
    exact number?_append inert
  · have undotted : ∀ more, tail ≠ '.' :: more := by
      rintro more rfl
      exact dotless '.' rfl rfl
    have before : upperBound? text = none := by
      apply upperBound?_eq_none
      rintro n ⟨more, rest, rfl, -⟩
      exact dots ⟨more, rfl⟩
    rw [before]
    apply upperBound?_eq_none
    rintro n ⟨more, rest, whole, -⟩
    match text with
    | [] => exact undotted _ whole
    | [_] => exact undotted _ (List.cons.inj whole).2
    | c :: d :: others =>
      simp only [List.cons_append, List.cons.injEq] at whole
      obtain ⟨rfl, rfl, -⟩ := whole
      exact dots ⟨others, rfl⟩

end UpperBound

theorem Opens.append (h : Opens line n rest) (inert : Inert tail) :
    Opens (line ++ tail) n (rest ++ tail) := by
  obtain ⟨lead, text, rfl, blank, number⟩ := h
  exact ⟨lead, text ++ tail, List.append_assoc _ _ _, blank, number.append inert⟩

theorem Opens.unique {m : Nat} {more : List Char} (h : Opens line n rest) (h' : Opens line m more) :
    n = m ∧ rest = more :=
  (opens_iff.1 h).unique (opens_iff.1 h')

/-- An upper bound that fits a word is the only one. -/
theorem bounded_of_upperBound {m : Nat} (lower : Opens line n rest) (upper : UpperBound rest m)
    (word : m < 4294967296) : Bounded line := by
  intro n' rest' m' lower' upper'
  obtain ⟨-, rfl⟩ := lower.unique lower'
  rw [← upper.unique upper']
  exact word

theorem gives_of_range? (bounded : Bounded line) (h : range? line = some r) : Gives line r := by
  obtain ⟨low, rest, opens, rfl⟩ := range?_eq_some_iff.1 h
  by_cases upper : ∃ n, UpperBound rest n
  · obtain ⟨n, upper⟩ := upper
    have word := bounded _ _ _ opens upper
    have value : (UInt32.ofNat n).toNat = n := UInt32.toNat_ofNat_of_lt' word
    rw [upperBound?_of_upperBound upper, if_pos word, Option.getD_some]
    rw [← value] at upper
    exact .range opens upper
  · have alone : ∀ n, ¬ UpperBound rest n := not_exists.1 upper
    rw [upperBound?_eq_none alone, Option.getD_none]
    exact .single opens alone

theorem range?_of_gives (h : Gives line r) : range? line = some r := by
  cases h with
  | @range low high rest lower upper =>
    rw [range?_of_opens lower, upperBound?_of_upperBound upper, if_pos high.toNat_lt,
      Option.getD_some, UInt32.ofNat_toNat]
  | single lower alone =>
    rw [range?_of_opens lower, upperBound?_eq_none alone, Option.getD_none]

/-- A line with two bounds is read as both of them exactly when the upper one fits a word. If it does
not, the line is not refused: it is read as the lower bound alone. -/
theorem upper_bound_kept_iff (lower : Opens line low.toNat rest) (upper : UpperBound rest n) :
    range? line = some ⟨low, if n < 4294967296 then UInt32.ofNat n else low⟩ ∧
      ((range? line = none ∨ ∃ r, range? line = some r ∧ r.high.toNat = n) ↔ n < 4294967296) := by
  have found : range? line = some ⟨low, if n < 4294967296 then UInt32.ofNat n else low⟩ := by
    rw [range?_of_opens lower, upperBound?_of_upperBound upper]
    split <;> rfl
  refine ⟨found, ?_⟩
  rw [found]
  constructor
  · rintro (none | ⟨r, same, kept⟩)
    · cases none
    · cases same
      rw [← kept]
      exact UInt32.toNat_lt _
  · intro word
    right
    refine ⟨_, rfl, ?_⟩
    rw [if_pos word]
    exact UInt32.toNat_ofNat_of_lt' word

/-- A line whose upper bound has one digit too many for a word. -/
def tooHigh : List Char := "0..100000000".toList

theorem opens_tooHigh : Opens tooHigh (0 : UInt32).toNat "..100000000".toList := by
  have read : number? (Text.trimStart tooHigh) = some (0, "..100000000".toList) := by decide
  exact opens_iff.2 (number?_eq_some_iff.1 read)

theorem upperBound_tooHigh : UpperBound "..100000000".toList 4294967296 := by
  have digits : "100000000".toList.all Radix.hexadecimal.isDigit = true := by decide
  have run : Run "100000000".toList [] :=
    ⟨by decide, fun c hc => isDigit_iff.1 (List.all_eq_true.1 digits c hc), by simp⟩
  have value : positional "100000000".toList = 4294967296 :=
    (value_eq_positional run.inside).symm.trans (by decide)
  refine ⟨"100000000".toList, [], by decide, ?_⟩
  rw [← value]
  exact number_of_dropMarker run (by decide)

theorem upper_bound_kept_iff_tooHigh :
    Opens tooHigh (0 : UInt32).toNat "..100000000".toList ∧
      UpperBound "..100000000".toList 4294967296 ∧ range? tooHigh = some ⟨0, 0⟩ ∧
      ¬ (range? tooHigh = none ∨ ∃ r, range? tooHigh = some r ∧ r.high.toNat = 4294967296) := by
  obtain ⟨found, kept⟩ := upper_bound_kept_iff opens_tooHigh upperBound_tooHigh
  exact ⟨opens_tooHigh, upperBound_tooHigh, found, fun h => absurd (kept.1 h) (Nat.lt_irrefl _)⟩

/-- It is not so that every line with two bounds is refused or read with both of them. -/
theorem not_forall_upper_bound_kept :
    ¬ ∀ (line rest : List Char) (low : UInt32) (n : Nat),
      Opens line low.toNat rest → UpperBound rest n →
        range? line = none ∨ ∃ r, range? line = some r ∧ r.high.toNat = n := by
  intro kept
  have found : range? tooHigh = some ⟨0, 0⟩ := by decide
  rcases kept _ _ _ _ opens_tooHigh upperBound_tooHigh with none | ⟨r, same, high⟩
  · cases found.symm.trans none
  · cases found.symm.trans same
    cases high

/-- A line is read by the rules of its notation, as long as its upper bound fits a word if it has
one: it gives a range exactly when it is read as that range, and it is refused exactly when it does
not open with a number that fits a word. A text behind such a line that goes on with neither digits
nor a marker nor dots does not change what the line is read as. -/
theorem line_follows_rules (bounded : Bounded line) :
    (∀ r, range? line = some r ↔ Gives line r) ∧
      (range? line = none ↔ ∀ (low : UInt32) rest, ¬ Opens line low.toNat rest) ∧
      ∀ r tail, range? line = some r →
        (∀ c ∈ tail.head?, ¬ HexDigit c ∧ ¬ MarkerEnd c ∧ c ≠ '.') →
        range? (line ++ tail) = some r := by
  refine ⟨fun r => ⟨gives_of_range? bounded, range?_of_gives⟩, range?_eq_none_iff, ?_⟩
  intro r tail found behind
  have inert : Inert tail := fun c first => ⟨(behind c first).1, (behind c first).2.1⟩
  have dotless : ∀ c ∈ tail.head?, c ≠ '.' := fun c first => (behind c first).2.2
  obtain ⟨low, rest, opens, rfl⟩ := range?_eq_some_iff.1 found
  rw [range?_of_opens (opens.append inert), upperBound?_append inert dotless]

/-- Blanks, bounds with markers, zeros and letters of either case, and a remark. -/
def remarked : List Char := "\u3000\t0x00A0..0XfF; 7..8".toList

theorem line_follows_rules_remarked :
    Bounded remarked ∧ Gives remarked ⟨0xA0, 0xFF⟩ ∧ range? remarked = some ⟨0xA0, 0xFF⟩ ∧
      range? (remarked ++ "g0..1".toList) = some ⟨0xA0, 0xFF⟩ := by
  have low : number? (Text.trimStart remarked) = some (0xA0, "..0XfF; 7..8".toList) := by decide
  have high : number? "0XfF; 7..8".toList = some (0xFF, "; 7..8".toList) := by decide
  have lower : Opens remarked (0xA0 : UInt32).toNat "..0XfF; 7..8".toList :=
    opens_iff.2 (number?_eq_some_iff.1 low)
  have upper : UpperBound "..0XfF; 7..8".toList (0xFF : UInt32).toNat :=
    ⟨_, _, by decide, number?_eq_some_iff.1 high⟩
  have bounded : Bounded remarked := bounded_of_upperBound lower upper (UInt32.toNat_lt _)
  have gives : Gives remarked ⟨0xA0, 0xFF⟩ := .range lower upper
  obtain ⟨rules, -, behind⟩ := line_follows_rules bounded
  have read := (rules _).2 gives
  refine ⟨bounded, gives, read, behind _ _ read fun c first => ?_⟩
  obtain rfl : 'g' = c := Option.some.inj first
  exact ⟨isDigit_eq_false_iff.1 (by decide), by decide, by decide⟩

end RangeLookup.Document
