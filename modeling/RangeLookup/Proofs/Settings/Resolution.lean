import Mathlib
import RangeLookup.Proofs.Format.Reading
import RangeLookup.Settings.Resolution

/-!
# Settings are found each on its own

With layers that are merged key by key, the value at a key is the one that is given to it, or else the
one that is built in (`merged_eq`). The two values are read and then checked together, which succeeds
exactly where both are what they have to be (`ofLayers_eq_ok_iff`). Put together, the settings load
exactly where a file and the environment settle on them (`load_eq_ok_iff`).
-/

namespace RangeLookup

namespace Catalog

theorem repeated?_eq_none_of_nodup {seen rest : List Format} (h : (seen ++ rest).Nodup) :
    repeated? seen rest = none := by
  induction rest generalizing seen with
  | nil => rfl
  | cons f rest ih =>
    rw [List.append_cons] at h
    obtain ⟨-, -, apart⟩ := List.nodup_append.1 (List.Nodup.of_append_left h)
    have fresh : f ∉ seen := fun there => apart f there f (List.mem_singleton_self f) rfl
    rw [repeated?, if_neg fresh]
    exact ih h

theorem ofList_eq_ok_iff {formats : List Format} {c : Catalog} :
    ofList formats = .ok c ↔ c.formats = formats := by
  refine ⟨formats_ofList, ?_⟩
  rintro rfl
  have unique : repeated? [] c.formats = none := repeated?_eq_none_of_nodup c.nodup
  unfold ofList
  split
  · next f repeats => cases unique.symm.trans repeats
  · rw [dif_neg c.ne_nil]

/-- Formats that make no catalog are none at all, or one of them repeats another. -/
theorem ofList_eq_error {formats : List Format} {reason : Error} (h : ofList formats = .error reason)
    (given : formats ≠ []) : ¬ formats.Nodup := by
  intro nodup
  have built : ofList formats = .ok ⟨formats, given, nodup⟩ := ofList_eq_ok_iff.2 rfl
  cases h.symm.trans built

end Catalog

namespace Format

variable {text : String} {texts : List String} {f : Format} {formats others : List Format}

theorem spells_unique : Relator.RightUnique fun (text : String) f => Spells text.toList f := by
  intro text f g spells again
  exact Option.some.inj ((read?_eq_some_iff.2 spells).symm.trans (read?_eq_some_iff.2 again))

/-- Texts are the formats of one list only. -/
theorem SpellEach.unique (spelled : SpellEach texts formats) (again : SpellEach texts others) :
    formats = others :=
  spells_unique.forall₂ spelled again

end Format

namespace Settings

/-! ### The value at a key -/

theorem Layer.last?_append {Value : Type} (front back : Layer Value) (key : String) :
    Layer.last? (front ++ back) key = (Layer.last? back key).or (Layer.last? front key) := by
  simp only [Layer.last?, List.filter_append, List.getLast?_append, Option.map_or]

theorem lastVariable?_congr {name other : String} (same : lowerCase name = lowerCase other)
    (environment : List (String × String)) :
    lastVariable? environment name = lastVariable? environment other := by
  rw [lastVariable?, lastVariable?, same]

namespace Library

variable {lib : Library} {file : Option (Layer lib.Value)} {exported : Layer lib.Value}
  {environment : List (String × String)} {settings : Settings}

theorem last?_builtIn (key : Key) : Layer.last? lib.builtIn key.name = some (lib.standard key) := by
  cases key <;> simp [builtIn, Layer.last?, Key.name]

/-- The value at a key of merged layers is that of the variable, or else that of the file, or else
what is built in. -/
theorem merged_eq (documented : lib.Documented)
    (merges : lib.MergesKeyByKey (file.toList ++ [exported]))
    (found : lib.environment variableRules environment = .ok exported) (key : Key) (name : String)
    (called : lowerCase name = lowerCase (variableRules.front ++ variableRules.divider ++ key.name)) :
    lib.merged lib.builtIn (file.toList ++ [exported]) key.name =
      match lastVariable? environment name with
      | some text => lib.ofVariable variableRules key.name text
      | none => (file.bind fun layer => layer.last? key.name).getD (lib.standard key) := by
  have winner := merges key
  have of_file : Layer.last? file.toList.flatten key.name =
      file.bind fun layer => layer.last? key.name := by
    cases file with
    | none => rfl
    | some layer => simp
  rw [List.flatten_append, List.flatten_singleton, Layer.last?_append, Layer.last?_append, of_file,
    documented.environment found, ← lastVariable?_congr called, last?_builtIn,
    Option.or_some] at winner
  rw [← Option.some.inj winner]
  cases lastVariable? environment name <;> rfl

/-! ### Both settings -/

theorem readFormats_cons_eq_ok_iff {text : String} {rest : List (Except Error String)}
    {formats : List Format} : readFormats (.ok text :: rest) = .ok formats ↔
      ∃ f others, Format.Spells text.toList f ∧ readFormats rest = .ok others ∧
        f :: others = formats := by
  simp only [← Format.parse_eq_ok_iff, readFormats, bind, Except.bind]
  cases Format.parse text with
  | error reason => simp [Except.mapError]
  | ok f => cases readFormats rest <;> simp [Except.mapError, pure, Except.pure]

/-- The formats of a catalog are read where each entry is the text of one. -/
theorem readFormats_eq_ok_iff {entries : List (Except Error String)} {formats : List Format} :
    readFormats entries = .ok formats ↔
      ∃ texts : List String, entries = texts.map .ok ∧ Format.SpellEach texts formats := by
  induction entries generalizing formats with
  | nil =>
    constructor
    · intro read
      cases read
      exact ⟨[], rfl, .nil⟩
    · rintro ⟨texts, same, spelled⟩
      obtain rfl := List.map_eq_nil_iff.1 same.symm
      cases spelled
      rfl
  | cons entry rest ih =>
    cases entry with
    | error reason =>
      constructor
      · intro read
        cases read
      · rintro ⟨texts, same, -⟩
        cases texts <;> cases same
    | ok text =>
      rw [readFormats_cons_eq_ok_iff]
      constructor
      · rintro ⟨f, others, spells, later, rfl⟩
        obtain ⟨texts, rfl, spelled⟩ := ih.1 later
        exact ⟨text :: texts, rfl, .cons spells spelled⟩
      · rintro ⟨texts, same, spelled⟩
        obtain _ | ⟨first, texts⟩ := texts
        · cases same
        · obtain ⟨head, tail⟩ := List.cons.inj same
          cases head
          obtain _ | ⟨spells, later⟩ := spelled
          exact ⟨_, _, spells, ih.2 ⟨texts, tail, later⟩, rfl⟩

theorem validate_eq_ok_iff {formats : List Format} {ceiling : Nat} :
    validate formats ceiling = .ok settings ↔
      settings.catalog.formats = formats ∧ settings.ceiling = ceiling ∧ ceiling ≠ 0 := by
  obtain ⟨catalog, limit⟩ := settings
  unfold validate
  by_cases zero : ceiling = 0
  · simp [zero]
  · rw [if_neg zero, ← Catalog.ofList_eq_ok_iff]
    cases Catalog.ofList formats with
    | error reason => simp [Except.mapError, bind, Except.bind]
    | ok c => simp [Except.mapError, bind, Except.bind, pure, Except.pure, zero, eq_comm]

/-- Layers give settings where the merged values are a list of formats and a ceiling, and both are
valid. -/
theorem ofLayers_eq_ok_iff {layers : List (Layer lib.Value)} : lib.ofLayers layers = .ok settings ↔
    lib.Lists (lib.merged lib.builtIn layers Key.catalog.name) settings.catalog.formats ∧
    lib.number (lib.merged lib.builtIn layers Key.ceiling.name) = .ok settings.ceiling ∧
      settings.ceiling ≠ 0 := by
  unfold ofLayers Lists
  dsimp only
  cases lib.entries (lib.merged lib.builtIn layers Key.catalog.name) with
  | error reason => simp [bind, Except.bind]
  | ok entries =>
    simp only [Except.ok.injEq]
    rw [← readFormats_eq_ok_iff]
    simp only [bind, Except.bind]
    cases readFormats entries with
    | error reason => simp
    | ok formats =>
      cases lib.number (lib.merged lib.builtIn layers Key.ceiling.name) with
      | error reason => simp
      | ok ceiling =>
        simp only [validate_eq_ok_iff, Except.ok.injEq]
        constructor
        · rintro ⟨rfl, rfl, room⟩
          exact ⟨rfl, rfl, room⟩
        · rintro ⟨rfl, rfl, room⟩
          exact ⟨rfl, rfl, room⟩

/-! ### Loading -/

theorem lists_standard (documented : lib.Documented) {formats : List Format} :
    lib.Lists (lib.standard .catalog) formats ↔ formats = [.words, .doubleWords] := by
  have spelled : Format.SpellEach ["16x16", "32x32"] [.words, .doubleWords] :=
    .cons (Format.read?_eq_some_iff.1 (by cbv)) (.cons (Format.read?_eq_some_iff.1 (by cbv)) .nil)
  unfold Lists
  rw [standard, documented.texts]
  constructor
  · rintro ⟨texts, same, again⟩
    have texts_eq := List.map_injective_iff.2 (fun _ _ => Except.ok.inj) (Except.ok.inj same)
    exact (texts_eq ▸ again).unique spelled
  · rintro rfl
    exact ⟨_, rfl, spelled⟩

theorem lists_merged_iff (documented : lib.Documented)
    (merges : lib.MergesKeyByKey (file.toList ++ [exported]))
    (found : lib.environment variableRules environment = .ok exported) {formats : List Format} :
    lib.Lists (lib.merged lib.builtIn (file.toList ++ [exported]) Key.catalog.name) formats ↔
      lib.CatalogIs file environment formats := by
  rw [merged_eq documented merges found .catalog "SPANTAB_CATALOG" (by decide)]
  unfold CatalogIs
  cases lastVariable? environment "SPANTAB_CATALOG" with
  | some text => exact documented.lists
  | none =>
    show lib.Lists ((file.bind fun layer => layer.last? "catalog").getD _) formats ↔ _
    cases file.bind fun layer => layer.last? "catalog" with
    | some value => exact Iff.rfl
    | none => exact lists_standard documented

theorem number_merged_iff (documented : lib.Documented)
    (merges : lib.MergesKeyByKey (file.toList ++ [exported]))
    (found : lib.environment variableRules environment = .ok exported) {n : Nat} :
    lib.number (lib.merged lib.builtIn (file.toList ++ [exported]) Key.ceiling.name) = .ok n ↔
      lib.CeilingIs file environment n := by
  rw [merged_eq documented merges found .ceiling "SPANTAB_MAX_INTERVALS" (by decide)]
  unfold CeilingIs
  cases lastVariable? environment "SPANTAB_MAX_INTERVALS" with
  | some text => exact Iff.rfl
  | none =>
    show lib.number ((file.bind fun layer => layer.last? "max_intervals").getD _) = .ok n ↔ _
    cases file.bind fun layer => layer.last? "max_intervals" with
    | some value => exact Iff.rfl
    | none =>
      show lib.number (lib.standard .ceiling) = .ok n ↔ n = 2048
      rw [standard, documented.number]
      exact ⟨fun same => (Except.ok.inj same).symm, fun same => congrArg Except.ok same.symm⟩

/-- The settings load where a file and the environment settle on them. -/
theorem load_eq_ok_iff (documented : lib.Documented) {files : String → Option Bytes}
    {config : Option String} (merges : lib.MergesLayersOf files config environment) :
    lib.load files config environment = .ok settings ↔
      lib.Settles files config environment settings.catalog settings.ceiling := by
  unfold load layers Settles
  cases opened : config.mapM (lib.file files) with
  | error reason => simp [bind, Except.bind]
  | ok file =>
    cases found : lib.environment variableRules environment with
    | error reason => simp [bind, Except.bind]
    | ok exported =>
      have merged := merges file exported opened found
      have loaded : lib.ofLayers (file.toList ++ [exported]) = .ok settings ↔
          lib.CatalogIs file environment settings.catalog.formats ∧
            lib.CeilingIs file environment settings.ceiling ∧ settings.ceiling ≠ 0 := by
        rw [ofLayers_eq_ok_iff, lists_merged_iff documented merged found,
          number_merged_iff documented merged found]
      simpa [bind, Except.bind, pure, Except.pure] using loaded

end Library

end Settings

end RangeLookup
