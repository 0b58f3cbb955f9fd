import RangeLookup.Proofs.Settings.Merge
import RangeLookup.Proofs.Settings.Resolution

/-!
# The library of the program's settings keeps its promises

A variable sets a key if its name is the key behind the words that all settings share, in capitals or
not (`keyOfVariable?_eq_some_iff`), so the last value that the environment gives to a key is the value
of a variable (`last?_ofEnvironment`). The variable of the catalog is a list of formats with commas
between them (`lists_ofVariable`). Layers are merged key by key as long as they set each setting as a
whole (`mergesKeyByKey_layered`).
-/

namespace RangeLookup.Settings

open Setting

variable {name key : String} {rules : VariableRules}

/-! ### Variables -/

theorem behind?_eq_some_iff {piece text rest : List Char} :
    behind? piece text = some rest ↔ text = piece ++ rest := by
  fun_induction behind? piece text with
  | case1 text => simp
  | case2 c piece text ih => simpa using ih
  | case3 c piece d text other => simp [Ne.symm other]
  | case4 c piece => simp

/-- A key without dots has none that stand for a piece of the name. -/
theorem dotted_eq_self {piece cs : List Char} (h : '.' ∉ dotted piece 0 cs) :
    dotted piece 0 cs = cs := by
  induction cs with
  | nil => rfl
  | cons c rest ih =>
    rw [dotted] at h ⊢
    split at h
    · simp at h
    · next plain => rw [if_neg plain, ih fun there => h (List.mem_cons_of_mem c there)]

theorem keyOfVariable?_eq_some_iff (undotted : '.' ∉ key.toList)
    (plain : dotted rules.nesting.toList 0 key.toList = key.toList) :
    keyOfVariable? rules name = some key ↔
      lowerCase name = lowerCase (rules.front ++ rules.divider) ++ key := by
  rw [keyOfVariable?, Option.map_eq_some_iff]
  constructor
  · rintro ⟨cs, behind, rfl⟩
    rw [String.toList_ofList] at undotted
    rw [← String.toList_inj, behind?_eq_some_iff.1 behind, String.toList_append,
      dotted_eq_self undotted, String.toList_ofList (l := cs)]
  · intro called
    refine ⟨key.toList, behind?_eq_some_iff.2 ?_, by rw [plain, String.ofList_toList]⟩
    rw [called, String.toList_append]

/-- The last value that the environment gives to a key is the value of a variable. -/
theorem last?_ofEnvironment {called : String}
    (sets : ∀ name, keyOfVariable? rules name = some key ↔ lowerCase name = lowerCase called)
    (environment : List (String × String)) : Layer.last? (ofEnvironment rules environment) key =
      (lastVariable? environment called).map (ofVariable rules key) := by
  have at_key : (ofEnvironment rules environment).filter (fun e => e.1 = key) =
      (environment.filter fun v => lowerCase v.1 = lowerCase called).map
        fun v => (key, ofVariable rules key v.2) := by
    induction environment with
    | nil => rfl
    | cons v rest ih =>
      unfold ofEnvironment at ih ⊢
      rw [List.filterMap_cons]
      by_cases here : lowerCase v.1 = lowerCase called
      · have key_eq := (sets v.1).2 here
        simpa [key_eq, here] using ih
      · cases key_eq : keyOfVariable? rules v.1 with
        | none => simpa [key_eq, here] using ih
        | some other =>
          have apart : other ≠ key := fun same => here ((sets v.1).1 (same ▸ key_eq))
          simpa [key_eq, here, apart] using ih
  rw [Layer.last?, at_key, List.getLast?_map, lastVariable?, Option.map_map, Option.map_map]
  rfl

theorem keyOfVariable?_variableRules (key : Key) : keyOfVariable? variableRules name = some key.name ↔
    lowerCase name = lowerCase (variableRules.front ++ variableRules.divider ++ key.name) := by
  cases key with
  | catalog => exact keyOfVariable?_eq_some_iff (by decide) (by decide)
  | ceiling => exact keyOfVariable?_eq_some_iff (by decide) (by decide)

/-! ### Numbers and formats

A text that reads as a truth value or a number spells no format, since it has no separator.
-/

section Separators

variable {text : List Char}

/-- No character of a text separates the widths of a format. -/
def Unseparated (text : List Char) : Prop := ∀ c ∈ text, ¬ Format.Separates c

theorem unseparated_of_digits (inside : ∀ c ∈ text, DecimalDigit c) : Unseparated text := by
  rintro c there (rfl | rfl | rfl) <;> exact absurd (inside _ there) (by decide)

theorem Unseparated.cons {c : Char} (first : ¬ Format.Separates c) (rest : Unseparated text) :
    Unseparated (c :: text) :=
  List.forall_mem_cons.2 ⟨first, rest⟩

theorem Unseparated.append {front back : List Char} (before : Unseparated front)
    (behind : Unseparated back) : Unseparated (front ++ back) :=
  List.forall_mem_append.2 ⟨before, behind⟩

theorem Unseparated.of_splitSign (magnitude : Unseparated (splitSign text).2) : Unseparated text := by
  unfold splitSign at magnitude
  split at magnitude
  · exact .cons (by decide) magnitude
  · exact .cons (by decide) magnitude
  · exact magnitude

/-- The words that are truth values or numbers have no separator, in letters of any case. -/
theorem unseparated_of_word {word : String} (same : String.ofList (text.map Char.toLower) = word)
    (known : word ∈ ["true", "false", "inf", "infinity", "nan"]) : Unseparated text := by
  have plain : ∀ word ∈ ["true", "false", "inf", "infinity", "nan"], Unseparated word.toList := by
    simp [Unseparated, Format.Separates]
  intro c there separates
  have small : c.toLower ∈ word.toList := by
    rw [← same, String.toList_ofList]
    exact List.mem_map_of_mem there
  rcases separates with rfl | rfl | rfl <;> exact plain word known _ small (by decide)

theorem unseparated_of_numeral {n : Nat} (read : Radix.decimal.read? text = some n) :
    Unseparated text :=
  unseparated_of_digits (read?_decimal_eq_some_iff.1 read).2.1

theorem unseparated_of_exponent {k : Int} (read : Decimal.exponent? text = some k) :
    Unseparated text := by
  cases text with
  | nil => exact List.forall_mem_nil _
  | cons e rest =>
    simp only [Decimal.exponent?, Option.ite_none_right_eq_some, Option.map_eq_some_iff,
      Option.bind_eq_bind, Option.bind_eq_some_iff] at read
    obtain ⟨letter, _, ⟨n, numeral, -⟩, -⟩ := read
    refine .cons ?_ (.of_splitSign (unseparated_of_numeral numeral))
    rcases letter with rfl | rfl <;> decide

/-- The digits that a text starts with have no separator. -/
theorem Unseparated.of_dropWhile (rest : Unseparated (text.dropWhile Radix.decimal.isDigit)) :
    Unseparated text := by
  rw [← List.takeWhile_append_dropWhile (p := Radix.decimal.isDigit) (l := text)]
  refine .append (unseparated_of_digits fun c there => ?_) rest
  exact isDigit_decimal_iff.1 (List.mem_takeWhile_imp there)

theorem unseparated_of_read {d : Decimal} (read : Decimal.read? text = some d) : Unseparated text := by
  refine .of_dropWhile ?_
  unfold Decimal.read? at read
  generalize text.dropWhile Radix.decimal.isDigit = rest at read ⊢
  dsimp only at read
  split at read
  · next behind =>
    have later : Unseparated (behind.dropWhile Radix.decimal.isDigit) := by
      simp only [Option.ite_none_left_eq_some, Option.bind_eq_bind, Option.bind_eq_some_iff] at read
      obtain ⟨-, k, exponent, -⟩ := read
      exact unseparated_of_exponent exponent
    exact .cons (by decide) later.of_dropWhile
  · simp only [Option.ite_none_left_eq_some, Option.bind_eq_bind, Option.bind_eq_some_iff] at read
    obtain ⟨-, k, exponent, -⟩ := read
    exact unseparated_of_exponent exponent

theorem unseparated_of_float {x : Float} (read : Decimal.float? text = some x) : Unseparated text := by
  refine .of_splitSign ?_
  simp only [Decimal.float?] at read
  split at read
  · next infinite =>
    rcases infinite with word | word <;> exact unseparated_of_word word (by simp)
  · split at read
    · next undefined => exact unseparated_of_word undefined (by simp)
    · obtain ⟨d, magnitude, -⟩ := Option.map_eq_some_iff.1 read
      exact unseparated_of_read magnitude

theorem unseparated_of_integer {i : Int} (read : integer? text = some i) : Unseparated text := by
  simp only [integer?, Option.filter_eq_some_iff, Option.map_eq_some_iff, Option.bind_eq_bind,
    Option.bind_eq_some_iff] at read
  obtain ⟨⟨_, ⟨n, numeral, -⟩, -⟩, -⟩ := read
  exact .of_splitSign (unseparated_of_numeral numeral)

/-- A text without separators is a list of one item, which spells no format. -/
theorem not_spellEach_of_unseparated {text : String} (plain : Unseparated text.toList)
    (formats : List Format) : ¬ Format.SpellEach (items text) formats := by
  have no_comma : ',' ∉ text.toList := fun there => plain ',' there (by decide)
  unfold items
  rw [List.splitOn_eq_singleton no_comma, List.map_singleton, String.ofList_toList]
  intro spelled
  obtain _ | ⟨spells, -⟩ := spelled
  obtain @⟨core, left, right, base, span, separator, ⟨-, -, -, -, text_eq⟩, core_eq, separates, -⟩ :=
    spells
  refine plain separator ?_ separates
  rw [text_eq, core_eq]
  simp

end Separators

/-! ### Values -/

theorem formatTexts_texts (source : Source) (texts : List String) (index : Nat) :
    formatTexts index (texts.map (.text source)) = texts.map .ok := by
  induction texts generalizing index with
  | nil => rfl
  | cons text rest ih => exact congrArg (Except.ok text :: ·) (ih (index + 1))

/-- The variable of the catalog lists formats where its items are texts of them. -/
theorem lists_ofVariable {text : String} {formats : List Format} :
    layered.Lists (ofVariable variableRules Key.catalog.name text) formats ↔
      Format.SpellEach (items text) formats := by
  have scalar : ∀ {value reason}, readCatalog value = .error reason → Unseparated text.toList →
      (layered.Lists value formats ↔ Format.SpellEach (items text) formats) := by
    intro value reason refused plain
    refine iff_of_false ?_ (not_spellEach_of_unseparated plain formats)
    rintro ⟨texts, listed, -⟩
    cases refused.symm.trans listed
  have listed : Key.catalog.name ∈ variableRules.listKeys := by decide
  have typed : (!variableRules.typed) = false := rfl
  unfold ofVariable
  simp only [typed, Bool.false_eq_true, if_false, if_pos listed]
  split
  · next yes => exact scalar rfl (unseparated_of_word yes (by simp))
  · split
    · next no => exact scalar rfl (unseparated_of_word no (by simp))
    · split
      · next i integer => exact scalar rfl (unseparated_of_integer integer)
      · split
        · next x float => exact scalar rfl (unseparated_of_float float)
        · have entries : readCatalog (.list .environment ((text.toList.splitOn ',').map fun s =>
              .text .environment (String.ofList s))) = .ok ((items text).map .ok) := by
            rw [readCatalog, items, ← formatTexts_texts .environment _ 0, List.map_map]
            rfl
          constructor
          · rintro ⟨texts, same, spelled⟩
            have texts_eq := List.map_injective_iff.2 (fun _ _ => Except.ok.inj)
              (Except.ok.inj (entries.symm.trans same))
            rwa [texts_eq]
          · exact fun spelled => ⟨_, entries, spelled⟩

theorem documented_layered : layered.Documented where
  environment := by
    intro exported layer found key
    cases found
    exact last?_ofEnvironment (fun name => keyOfVariable?_variableRules key) exported
  lists := lists_ofVariable
  texts := fun texts => congrArg Except.ok (formatTexts_texts .builtIn texts 0)
  number := by
    intro n
    show readCeiling (.integer .builtIn n.toNat) = .ok n.toNat
    simp [readCeiling]

/-! ### Layers -/

theorem child?_builtIn (key : Key) :
    (emptyTable.addLayer layered.builtIn).child? key.name = some (layered.standard key) := by
  cases key <;> cbv

theorem mergesKeyByKey_layered {layers : List (Layer Setting)}
    (whole : ∀ key : Key, SetAsWhole key.name layers.flatten) : layered.MergesKeyByKey layers := by
  intro key
  have single : pathOf key.name = [.child key.name] := by cases key <;> decide
  have merged : layered.merged layered.builtIn layers key.name =
      valueAt (merge layered.builtIn layers) key.name := rfl
  rw [merged, valueAt, child?_merge_of_setAsWhole (whole key) single, Layer.last?_append,
    child?_builtIn, Library.last?_builtIn, Option.or_some]
  rfl

end RangeLookup.Settings
