import Mathlib
import RangeLookup.CommandLine.Arguments
import RangeLookup.CommandLine.Resolution

/-!
# Arguments are read by their rules

What a single argument is shows in its first characters (`ofText_cases`), and an option in how it is
written (`ofText_eq_awaiting_iff`, `ofText_eq_attached_iff`). So the parts that the reader takes off a
command line one after the other are those into which the line falls (`line_iff_parts`), and it falls
into no others (`Line.unique`).
-/

namespace RangeLookup.CommandLine

/-! ### Single arguments -/

/-- An argument is free where it is empty, one dash, or begins with another character. -/
theorem isFree_iff {value : String} : IsFree value ↔ canBeValue value = true := by
  unfold IsFree canBeValue
  constructor
  · intro free
    split
    · next front second rest chars =>
      rw [chars] at free
      have alone := congrArg String.toList (free rfl)
      rw [chars] at alone
      cases alone
    · rfl
  · intro possible dash
    split at possible
    · cases possible
    · next other =>
      cases chars : value.toList with
      | nil =>
        rw [chars] at dash
        cases dash
      | cons c rest =>
        rw [chars, List.head?_cons] at dash
        cases dash
        cases rest with
        | nil => exact String.toList_inj.1 chars
        | cons d rest => exact absurd chars (other d rest)

/-- What an argument is, by its first characters. -/
theorem ofText_cases (text : String) :
    (text = "--" ∧ Argument.ofText text = .divider) ∨
    (∃ rest, rest ≠ [] ∧ text.toList = '-' :: '-' :: rest ∧
      Argument.ofText text = .ofLong rest) ∨
    (∃ letter rest, letter ≠ '-' ∧ text.toList = '-' :: letter :: rest ∧
      Argument.ofText text = .ofShort letter rest) ∨
    (IsFree text ∧ Argument.ofText text = .position text) := by
  unfold Argument.ofText
  split
  · next chars => exact .inl ⟨String.toList_inj.1 chars, rfl⟩
  · next rest more chars => exact .inr (.inl ⟨rest, more, chars, rfl⟩)
  · next letter rest _ apart chars =>
    exact .inr (.inr (.inl ⟨letter, rest, apart, chars, rfl⟩))
  · next _ no_long no_short =>
    refine .inr (.inr (.inr ⟨isFree_iff.2 ?_, rfl⟩))
    unfold canBeValue
    split
    · next letter rest chars => exact absurd chars (no_short letter rest)
    · rfl

theorem ofText_short {text : String} {letter : Char} {rest : List Char}
    (chars : text.toList = '-' :: letter :: rest) (apart : letter ≠ '-') :
    Argument.ofText text = .ofShort letter rest := by
  unfold Argument.ofText
  rw [chars]
  split
  · next h => cases h; exact absurd rfl apart
  · next h => cases h; exact absurd rfl apart
  · next h => cases h; rfl
  · next no_short => exact absurd rfl (no_short letter rest)

theorem ofText_free {text : String} (free : IsFree text) : Argument.ofText text = .position text := by
  have possible := isFree_iff.1 free
  unfold canBeValue at possible
  unfold Argument.ofText
  split
  · next chars =>
    rw [chars] at possible
    cases possible
  · next chars =>
    rw [chars] at possible
    cases possible
  · next chars =>
    rw [chars] at possible
    cases possible
  · rfl

/-! ### Names -/

theorem dashes_append_inj {long other : String} (h : "--" ++ long = "--" ++ other) : long = other := by
  simpa [← String.toList_inj] using h

theorem dashes_append_ne {long : String} {letter : Char} (apart : letter ≠ '-') :
    "--" ++ long ≠ String.ofList ['-', letter] := by
  rw [Ne, ← String.toList_inj]
  simp [Ne.symm apart]

/-- The names behind two dashes. -/
theorem ofLong?_eq_some_iff {long : String} {choice : Choice} :
    Choice.ofLong? long = some choice ↔ "--" ++ long ∈ choice.names := by
  constructor
  · intro known
    unfold Choice.ofLong? at known
    split_ifs at known with h h h h h <;> cases known <;> subst h <;> decide
  · intro known
    have one : ∀ {other : String}, "--" ++ long ∈ ["--" ++ other] → long = other := fun h =>
      dashes_append_inj (List.mem_singleton.1 h)
    have two : ∀ {other : String} {letter : Char}, letter ≠ '-' →
        "--" ++ long ∈ ["--" ++ other, String.ofList ['-', letter]] → long = other := by
      intro other letter apart h
      rcases List.mem_cons.1 h with h | h
      · exact dashes_append_inj h
      · exact absurd (List.mem_singleton.1 h) (dashes_append_ne apart)
    cases choice with
    | name => rw [@one "asm" known]; rfl
    | format => rw [@two "format" 'f' (by decide) known]; rfl
    | config => rw [@two "config" 'c' (by decide) known]; rfl
    | ceiling => rw [@one "max-intervals" known]; rfl
    | log => rw [@two "output-format" 'o' (by decide) known]; rfl

/-- The letters behind one dash. -/
theorem ofShort?_eq_some_iff {letter : Char} {choice : Choice} :
    Choice.ofShort? letter = some choice ↔ String.ofList ['-', letter] ∈ choice.names := by
  constructor
  · intro known
    unfold Choice.ofShort? at known
    split_ifs at known with h h h <;> cases known <;> subst h <;> decide
  · intro known
    cases choice <;> simp [Choice.names, ← String.toList_inj] at known <;> subst known <;> rfl

/-- A name of two characters is a dash and a letter. -/
theorem exists_letter {name : String} {choice : Choice} (known : name ∈ choice.names)
    (short : name.length = 2) : ∃ letter, name = String.ofList ['-', letter] := by
  have dash : ∀ name ∈ choice.names, name.toList.head? = some '-' := by cases choice <;> decide
  obtain ⟨first, letter, chars⟩ := List.length_eq_two.1 ((String.length_toList (s := name)).trans short)
  have first_eq := dash name known
  rw [chars] at first_eq
  cases first_eq
  exact ⟨letter, by rw [← chars, String.ofList_toList]⟩

theorem ofShort_cons {letter c : Char} {choice : Choice}
    (known : Choice.ofShort? letter = some choice) (plain : c ≠ '=') (rest : List Char) :
    letter ≠ '-' ∧ Argument.ofShort letter (c :: rest) = .attached choice (String.ofList (c :: rest)) := by
  unfold Choice.ofShort? at known
  split_ifs at known with h h h <;> cases known <;> subst h <;>
    exact ⟨by decide, by simp [Argument.ofShort, Choice.ofShort?, plain]⟩

/-! ### Options with their values -/

theorem ofLong_eq_awaiting {rest : List Char} {choice : Choice}
    (read : Argument.ofLong rest = .awaiting choice) : "--" ++ String.ofList rest ∈ choice.names := by
  unfold Argument.ofLong at read
  dsimp only at read
  split at read
  · next no_equals =>
    have whole := List.takeWhile_eq_self_iff.2 (List.dropWhile_eq_nil_iff.1 no_equals)
    rw [whole] at read
    split_ifs at read
    split at read
    · next known =>
      cases read
      exact ofLong?_eq_some_iff.1 known
    · cases read
  · split at read <;> cases read

theorem ofLong_eq_attached {rest : List Char} {choice : Choice} {value : String}
    (read : Argument.ofLong rest = .attached choice value) :
    ∃ long : String, "--" ++ long ∈ choice.names ∧ rest = long.toList ++ '=' :: value.toList := by
  unfold Argument.ofLong at read
  dsimp only at read
  split at read
  · split_ifs at read
    split at read <;> cases read
  · next c behind cut =>
    split at read
    · next known =>
      cases read
      have equals : c = '=' := by
        have stopped := List.head?_dropWhile_not (fun c => c != '=') rest
        rw [cut] at stopped
        simpa using stopped
      subst equals
      refine ⟨_, ofLong?_eq_some_iff.1 known, ?_⟩
      rw [String.toList_ofList, String.toList_ofList, ← cut, List.takeWhile_append_dropWhile]
    · cases read

theorem ofShort_eq_awaiting {letter : Char} {rest : List Char} {choice : Choice}
    (read : Argument.ofShort letter rest = .awaiting choice) :
    rest = [] ∧ String.ofList ['-', letter] ∈ choice.names := by
  unfold Argument.ofShort at read
  split_ifs at read
  split at read
  · cases read
  · next known =>
    cases read
    exact ⟨rfl, ofShort?_eq_some_iff.1 known⟩
  · cases read
  · cases read

theorem ofShort_eq_attached {letter : Char} {rest : List Char} {choice : Choice} {value : String}
    (read : Argument.ofShort letter rest = .attached choice value) :
    String.ofList ['-', letter] ∈ choice.names ∧ (rest = '=' :: value.toList ∨
      rest = value.toList ∧ value ≠ "" ∧ value.toList.head? ≠ some '=') := by
  unfold Argument.ofShort at read
  split_ifs at read
  split at read
  · cases read
  · cases read
  · next known =>
    cases read
    exact ⟨ofShort?_eq_some_iff.1 known, .inl (by rw [String.toList_ofList])⟩
  · next known some_char plain =>
    cases read
    refine ⟨ofShort?_eq_some_iff.1 known, .inr ⟨by rw [String.toList_ofList], ?_, ?_⟩⟩
    · intro empty
      exact some_char (String.ofList_eq_empty_iff.1 empty)
    · rw [String.toList_ofList]
      intro equals
      obtain ⟨behind, cut⟩ := List.head?_eq_some_iff.1 equals
      exact plain behind cut

theorem ofText_eq_awaiting_iff {text : String} {choice : Choice} :
    Argument.ofText text = .awaiting choice ↔ text ∈ choice.names := by
  constructor
  · intro same
    obtain ⟨-, read⟩ | ⟨rest, -, chars, read⟩ | ⟨letter, rest, -, chars, read⟩ | ⟨-, read⟩ :=
      ofText_cases text
    · cases read.symm.trans same
    · have text_eq : text = "--" ++ String.ofList rest := by
        rw [← String.toList_inj, chars, String.toList_append, String.toList_ofList (l := rest)]
        rfl
      exact text_eq ▸ ofLong_eq_awaiting (read.symm.trans same)
    · obtain ⟨rfl, known⟩ := ofShort_eq_awaiting (read.symm.trans same)
      rwa [← chars, String.ofList_toList] at known
    · cases read.symm.trans same
  · have names : ∀ name ∈ choice.names, Argument.ofText name = .awaiting choice := by
      cases choice <;> decide
    exact names text

/-- An argument is an option with its value where it is a name and a value behind an equals sign, or
a letter and a value directly behind it. -/
theorem ofText_eq_attached_iff {text value : String} {choice : Choice} :
    Argument.ofText text = .attached choice value ↔
      (∃ name ∈ choice.names, text = name ++ "=" ++ value) ∨
      ∃ name ∈ choice.names, name.length = 2 ∧ value ≠ "" ∧ value.toList.head? ≠ some '=' ∧
        text = name ++ value := by
  constructor
  · intro same
    obtain ⟨-, read⟩ | ⟨rest, -, chars, read⟩ | ⟨letter, rest, -, chars, read⟩ | ⟨-, read⟩ :=
      ofText_cases text
    · cases read.symm.trans same
    · obtain ⟨long, known, rfl⟩ := ofLong_eq_attached (read.symm.trans same)
      refine .inl ⟨_, known, ?_⟩
      rw [← String.toList_inj, chars]
      simp
    · obtain ⟨known, rfl | ⟨rfl, some_char, plain⟩⟩ := ofShort_eq_attached (read.symm.trans same)
      · refine .inl ⟨_, known, ?_⟩
        rw [← String.toList_inj, chars]
        simp
      · refine .inr ⟨_, known, String.length_ofList, some_char, plain, ?_⟩
        rw [← String.toList_inj, chars]
        simp
    · cases read.symm.trans same
  · rintro (⟨name, known, rfl⟩ | ⟨name, known, short, some_char, plain, rfl⟩)
    · have names : ∀ name ∈ choice.names,
          Argument.ofText (name ++ "=" ++ value) = .attached choice value := by
        cases choice <;>
          simp [Choice.names, Argument.ofText, Argument.ofLong, Argument.ofShort, Choice.ofLong?,
            Choice.ofShort?]
      exact names name known
    · obtain ⟨letter, rfl⟩ := exists_letter known short
      obtain ⟨c, rest, split⟩ := List.exists_cons_of_ne_nil (mt String.toList_eq_nil_iff.1 some_char)
      rw [split] at plain
      have first : c ≠ '=' := fun same => plain (congrArg some same)
      obtain ⟨apart, read⟩ := ofShort_cons (ofShort?_eq_some_iff.2 known) first rest
      have text : (String.ofList ['-', letter] ++ value).toList = '-' :: letter :: c :: rest := by
        rw [String.toList_append, String.toList_ofList, split]
        rfl
      rw [ofText_short text apart, read, ← split, String.ofList_toList]

theorem ofLong_ne (rest : List Char) :
    Argument.ofLong rest ≠ .divider ∧ ∀ value, Argument.ofLong rest ≠ .position value := by
  unfold Argument.ofLong
  dsimp only
  split
  · split_ifs
    · simp
    · simp
    · split <;> simp
  · split <;> simp

theorem ofShort_ne (letter : Char) (rest : List Char) :
    Argument.ofShort letter rest ≠ .divider ∧ ∀ value, Argument.ofShort letter rest ≠ .position value := by
  unfold Argument.ofShort
  split_ifs
  · simp
  · simp
  · split <;> simp

theorem ofText_eq_divider {text : String} (same : Argument.ofText text = .divider) : text = "--" := by
  obtain ⟨alone, -⟩ | ⟨rest, -, -, read⟩ | ⟨letter, rest, -, -, read⟩ | ⟨-, read⟩ := ofText_cases text
  · exact alone
  · exact absurd (read.symm.trans same) (ofLong_ne rest).1
  · exact absurd (read.symm.trans same) (ofShort_ne letter rest).1
  · cases read.symm.trans same

theorem ofText_eq_position {text value : String} (same : Argument.ofText text = .position value) :
    text = value ∧ IsFree value := by
  obtain ⟨-, read⟩ | ⟨rest, -, -, read⟩ | ⟨letter, rest, -, -, read⟩ | ⟨free, read⟩ :=
    ofText_cases text
  · cases read.symm.trans same
  · exact absurd (read.symm.trans same) ((ofLong_ne rest).2 value)
  · exact absurd (read.symm.trans same) ((ofShort_ne letter rest).2 value)
  · cases read.symm.trans same
    exact ⟨rfl, free⟩

/-! ### Parts -/

/-- The parts of a command line as the reader takes them off one after the other. -/
inductive Parts : List String → List Part → Prop
  | nil : Parts [] []
  | attached {text value : String} {choice : Choice} {rest : List String} {parts : List Part}
      (same : Argument.ofText text = .attached choice value) (later : Parts rest parts) :
      Parts (text :: rest) (.option choice value :: parts)
  | next {text value : String} {choice : Choice} {rest : List String} {parts : List Part}
      (awaits : Argument.ofText text = .awaiting choice) (taken : canBeValue value = true)
      (later : Parts rest parts) : Parts (text :: value :: rest) (.option choice value :: parts)
  | position {text value : String} {rest : List String} {parts : List Part}
      (alone : Argument.ofText text = .position value) (later : Parts rest parts) :
      Parts (text :: rest) (.position value :: parts)
  | divider {text : String} {rest : List String} (divides : Argument.ofText text = .divider) :
      Parts (text :: rest) (rest.map .position)

/-- The reader takes the parts off a line into which it falls. -/
theorem line_iff_parts {arguments : List String} {parts : List Part} :
    Line arguments parts ↔ Parts arguments parts := by
  constructor
  · intro line
    induction line with
    | nil => exact .nil
    | next known free later ih =>
      exact .next (ofText_eq_awaiting_iff.2 known) (isFree_iff.1 free) ih
    | equals known later ih =>
      exact .attached (ofText_eq_attached_iff.2 (.inl ⟨_, known, rfl⟩)) ih
    | attached known short some_char plain later ih =>
      exact .attached (ofText_eq_attached_iff.2 (.inr ⟨_, known, short, some_char, plain, rfl⟩)) ih
    | position free later ih => exact .position (ofText_free free) ih
    | divider => exact .divider rfl
  · intro split
    induction split with
    | nil => exact .nil
    | attached same later ih =>
      obtain ⟨name, known, rfl⟩ | ⟨name, known, short, some_char, plain, rfl⟩ :=
        ofText_eq_attached_iff.1 same
      · exact .equals known ih
      · exact .attached known short some_char plain ih
    | next awaits taken later ih =>
      exact .next (ofText_eq_awaiting_iff.1 awaits) (isFree_iff.2 taken) ih
    | position alone later ih =>
      obtain ⟨rfl, free⟩ := ofText_eq_position alone
      exact .position free ih
    | divider divides =>
      obtain rfl := ofText_eq_divider divides
      exact .divider

theorem Parts.unique {arguments : List String} {parts others : List Part}
    (split : Parts arguments parts) (again : Parts arguments others) : parts = others := by
  induction split generalizing others with
  | nil => cases again; rfl
  | attached same later ih =>
    cases again with
    | attached same' later' => cases same.symm.trans same'; rw [ih later']
    | next awaits _ _ => cases same.symm.trans awaits
    | position alone _ => cases same.symm.trans alone
    | divider divides => cases same.symm.trans divides
  | next awaits taken later ih =>
    cases again with
    | attached same _ => cases awaits.symm.trans same
    | next awaits' _ later' => cases awaits.symm.trans awaits'; rw [ih later']
    | position alone _ => cases awaits.symm.trans alone
    | divider divides => cases awaits.symm.trans divides
  | position alone later ih =>
    cases again with
    | attached same _ => cases alone.symm.trans same
    | next awaits _ _ => cases alone.symm.trans awaits
    | position alone' later' => cases alone.symm.trans alone'; rw [ih later']
    | divider divides => cases alone.symm.trans divides
  | divider divides =>
    cases again with
    | attached same _ => cases divides.symm.trans same
    | next awaits _ _ => cases divides.symm.trans awaits
    | position alone _ => cases divides.symm.trans alone
    | divider _ => rfl

/-- A command line falls into parts in one way only. -/
theorem Line.unique {arguments : List String} {parts others : List Part}
    (line : Line arguments parts) (again : Line arguments others) : parts = others :=
  (line_iff_parts.1 line).unique (line_iff_parts.1 again)

end RangeLookup.CommandLine
