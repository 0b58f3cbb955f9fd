import RangeLookup.Proofs.CommandLine.Arguments
import RangeLookup.Proofs.Format.Reading

/-!
# What the job of a command line holds

A command line asks for a compilation exactly if the job takes up its parts one after the other
(`ofArguments_eq_compile_iff`). What the job holds is then read off the parts: each part that is taken
up adds its value to a place of its own (`Job.Collects.add`).
-/

namespace RangeLookup.CommandLine

/-- The job with one more part, unless that is wrong or was given before. -/
def Job.add (job : Job) : Part → Option Job
  | .option choice value => job.choose choice value
  | .position value => job.position value

variable {job final : Job} {part : Part} {parts : List Part} {arguments : List String}

/-! ### Parts -/

theorem readPositions_eq_compile_iff : readPositions job arguments = .compile final ↔
    (arguments.map Part.position).foldlM Job.add job = some final := by
  induction arguments generalizing job with
  | nil => simp [readPositions]
  | cons value rest ih =>
    rw [readPositions, List.map_cons, List.foldlM_cons, Job.add]
    cases job.position value with
    | none => simp
    | some longer => exact ih

/-- A part that is taken up comes before what the rest of the command line says. -/
theorem add_cons_iff (part : Part) {rest : List String} {more : Job → Option Job}
    (later : ∀ longer, readFrom none longer rest = .compile final ↔ more longer = some final) :
    (match job.add part with
      | some longer => readFrom none longer rest
      | none => .refused) = .compile final ↔ (job.add part >>= more) = some final := by
  cases job.add part with
  | none => simp
  | some longer => exact later longer

theorem readFrom_of_parts (split : Parts arguments parts) (job : Job) :
    readFrom none job arguments = .compile final ↔ parts.foldlM Job.add job = some final := by
  induction split generalizing job with
  | nil => simp [readFrom]
  | attached same later ih =>
    rw [readFrom, same, List.foldlM_cons]
    exact add_cons_iff (.option _ _) ih
  | next awaits taken later ih =>
    rw [readFrom, awaits, List.foldlM_cons]
    show readFrom _ _ _ = _ ↔ _
    rw [readFrom, if_pos taken]
    exact add_cons_iff (.option _ _) ih
  | position alone later ih =>
    rw [readFrom, alone, List.foldlM_cons]
    exact add_cons_iff (.position _) ih
  | divider divides =>
    rw [readFrom, divides]
    exact readPositions_eq_compile_iff

/-- A command line that asks for a compilation falls into parts. -/
theorem exists_parts : ∀ {arguments : List String} {job : Job},
    readFrom none job arguments = .compile final → ∃ parts, Parts arguments parts
  | [], _, _ => ⟨[], .nil⟩
  | text :: rest, job, h => by
    rw [readFrom] at h
    split at h
    · next divides => exact ⟨_, .divider divides⟩
    · cases h
    · cases h
    · next choice value same =>
      split at h
      · obtain ⟨parts, later⟩ := exists_parts h
        exact ⟨_, .attached same later⟩
      · cases h
    · next choice awaits =>
      -- the value is the next argument, so the rest is two arguments shorter
      cases rest with
      | nil => cases h
      | cons value rest =>
        rw [readFrom] at h
        split at h
        · next taken =>
          split at h
          · obtain ⟨parts, later⟩ := exists_parts h
            exact ⟨_, .next awaits taken later⟩
          · cases h
        · cases h
    · next value alone =>
      split at h
      · obtain ⟨parts, later⟩ := exists_parts h
        exact ⟨_, .position alone later⟩
      · cases h
    · cases h

/-- A command line asks for a compilation exactly if it falls into parts that a job takes up. -/
theorem ofArguments_eq_compile_iff : Request.ofArguments arguments = .compile job ↔
    ∃ parts, Parts arguments parts ∧ parts.foldlM Job.add {} = some job := by
  constructor
  · intro asked
    obtain ⟨parts, split⟩ := exists_parts asked
    exact ⟨parts, split, (readFrom_of_parts split {}).1 asked⟩
  · rintro ⟨parts, split, added⟩
    exact (readFrom_of_parts split {}).2 added

/-! ### What a job holds -/

theorem once_eq_some_iff {α : Type} {old new both : Option α} :
    once old new = some both ↔ old = none ∧ both = new ∧ new ≠ none := by
  cases old <;> cases new <;> simp [once, eq_comm]

/-- A ceiling is read as the number that it spells. -/
theorem spellsCeiling_iff {value : String} {n : Nat} :
    SpellsCeiling value n ↔ (readWord? value.toList).filter (· != 0) = some n := by
  simp only [readWord?, Option.filter_eq_some_iff, read?_decimal_eq_some_iff, bne_iff_ne,
    decide_eq_true_eq]
  constructor
  · rintro @⟨sign, digits, plus, filled, inside, value_eq, room, word, text_eq⟩
    have dropped : dropPlus value.toList = digits := by
      rw [text_eq]
      rcases plus with rfl | rfl
      · exact dropPlus_of_decimalDigit inside
      · rfl
    rw [dropped]
    exact ⟨⟨⟨filled, inside, value_eq⟩, word⟩, room⟩
  · rintro ⟨⟨⟨filled, inside, value_eq⟩, word⟩, room⟩
    obtain ⟨sign, plus, whole⟩ := exists_sign value.toList
    exact .intro plus filled inside value_eq room word whole

theorem word_of_ofText? {value : String} {style : LogStyle}
    (read : LogStyle.ofText? value = some style) : value = style.word := by
  unfold LogStyle.ofText? at read
  split_ifs at read with h h <;> cases read <;> exact h

@[simp] theorem valuesOf_concat_option (asked choice : Choice) (parts : List Part) (value : String) :
    valuesOf asked (parts ++ [.option choice value]) =
      valuesOf asked parts ++ if choice = asked then [value] else [] := by
  by_cases same : choice = asked <;> simp [valuesOf, same]

@[simp] theorem valuesOf_concat_position (asked : Choice) (parts : List Part) (value : String) :
    valuesOf asked (parts ++ [.position value]) = valuesOf asked parts := by simp [valuesOf]

@[simp] theorem positions_concat_option (choice : Choice) (parts : List Part) (value : String) :
    positions (parts ++ [.option choice value]) = positions parts := by simp [positions]

@[simp] theorem positions_concat_position (parts : List Part) (value : String) :
    positions (parts ++ [.position value]) = positions parts ++ [value] := by simp [positions]

/-- A part that is taken up adds its value to what the job holds. -/
theorem Job.Collects.add (h : job.Collects parts) (added : job.add part = some final) :
    final.Collects (parts ++ [part]) := by
  obtain ⟨input, name, formats, config, ceiling, log⟩ := h
  cases part with
  | position value =>
    obtain ⟨both, taken, rfl⟩ := Option.map_eq_some_iff.1 added
    obtain ⟨unset, rfl, some_char⟩ := once_eq_some_iff.1 taken
    refine ⟨?_, by simpa using name, by simpa using formats, by simpa using config,
      by simpa using ceiling, by simpa using log⟩
    by_cases empty : value.isEmpty
    · simp [empty] at some_char
    · simp [empty, input, unset]
  | option choice value =>
    cases choice with
    | name =>
      obtain ⟨both, taken, rfl⟩ := Option.map_eq_some_iff.1 added
      obtain ⟨unset, rfl, -⟩ := once_eq_some_iff.1 taken
      exact ⟨by simpa using input, by simp [name, unset], by simpa using formats,
        by simpa using config, by simpa using ceiling, by simpa using log⟩
    | format =>
      obtain ⟨f, read, rfl⟩ := Option.map_eq_some_iff.1 added
      have longer : Format.SpellEach (valuesOf .format parts ++ [value]) (job.formats ++ [f]) :=
        List.rel_append formats (.cons (Format.read?_eq_some_iff.1 read) .nil)
      exact ⟨by simpa using input, by simpa using name, by simpa using longer,
        by simpa using config, by simpa using ceiling, by simpa using log⟩
    | config =>
      obtain ⟨both, taken, rfl⟩ := Option.map_eq_some_iff.1 added
      obtain ⟨unset, rfl, some_char⟩ := once_eq_some_iff.1 taken
      refine ⟨by simpa using input, by simpa using name, by simpa using formats, ?_,
        by simpa using ceiling, by simpa using log⟩
      by_cases empty : value.isEmpty
      · simp [empty] at some_char
      · simp [empty, config, unset]
    | ceiling =>
      obtain ⟨both, taken, rfl⟩ := Option.map_eq_some_iff.1 added
      obtain ⟨unset, rfl, read⟩ := once_eq_some_iff.1 taken
      obtain ⟨n, read⟩ := Option.ne_none_iff_exists'.1 read
      refine ⟨by simpa using input, by simpa using name, by simpa using formats,
        by simpa using config, ?_, by simpa using log⟩
      rw [unset] at ceiling
      obtain none_given := List.forall₂_nil_right_iff.1 ceiling
      simpa [none_given, read] using spellsCeiling_iff.2 read
    | log =>
      obtain ⟨both, taken, rfl⟩ := Option.map_eq_some_iff.1 added
      obtain ⟨unset, rfl, read⟩ := once_eq_some_iff.1 taken
      obtain ⟨style, read⟩ := Option.ne_none_iff_exists'.1 read
      have only : valuesOf .log parts ++ [value] = [style.word] := by
        simp [log, unset, word_of_ofText? read]
      exact ⟨by simpa using input, by simpa using name, by simpa using formats,
        by simpa using config, by simpa using ceiling, by simpa [read] using only⟩

theorem Job.Collects.foldlM {front : List Part} (h : job.Collects front)
    (added : parts.foldlM Job.add job = some final) : final.Collects (front ++ parts) := by
  induction parts generalizing job front with
  | nil =>
    obtain rfl := Option.some.inj added
    rwa [List.append_nil]
  | cons part rest ih =>
    rw [List.foldlM_cons, Option.bind_eq_bind, Option.bind_eq_some_iff] at added
    obtain ⟨longer, taken, added⟩ := added
    rw [List.append_cons]
    exact ih (h.add taken) added

/-- The job of a command line holds what its parts say. -/
theorem collects_of_ofArguments (asked : Request.ofArguments arguments = .compile job) :
    ∃ parts, Line arguments parts ∧ job.Collects parts := by
  obtain ⟨parts, split, added⟩ := ofArguments_eq_compile_iff.1 asked
  have empty : Job.Collects {} [] := ⟨rfl, rfl, .nil, rfl, .nil, rfl⟩
  exact ⟨parts, line_iff_parts.2 split, empty.foldlM added⟩

end RangeLookup.CommandLine
