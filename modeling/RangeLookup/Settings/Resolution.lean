import RangeLookup.Format.Spelling
import RangeLookup.Settings

/-!
# Where settings come from

A setting has the value of its variable if that is set, else the value that a file gives it, else the
one that is built in. Each of the two settings is found on its own. What a library of settings is
relied on for stands in `Library.Documented` and `Library.MergesKeyByKey`.
-/

namespace RangeLookup.Settings

/-- The value that a layer gives to a key; where it gives several the last one counts. -/
def Layer.last? {Value : Type} (layer : Layer Value) (key : String) : Option Value :=
  (layer.filter fun e => e.1 = key).getLast?.map (·.2)

/-- The value of a variable, whose name knows no letter case; the last one counts. -/
def lastVariable? (environment : List (String × String)) (name : String) : Option String :=
  (environment.filter fun v => lowerCase v.1 = lowerCase name).getLast?.map (·.2)

/-- The items of a list that is typed with commas between them. -/
def items (text : String) : List String := (text.toList.splitOn ',').map String.ofList

namespace Library

variable (lib : Library)

/-- A value lists formats, by a text for each of them. -/
def Lists (value : lib.Value) (formats : List Format) : Prop :=
  ∃ texts : List String, lib.entries value = .ok (texts.map .ok) ∧ Format.SpellEach texts formats

/-! ### What is relied on -/

/-- What the documentation of a library promises. -/
structure Documented : Prop where
  /-- The environment gives a setting by the variable that is named for its key. -/
  environment : ∀ {exported layer}, lib.environment variableRules exported = .ok layer →
    ∀ key : Key, Layer.last? layer key.name =
      (lastVariable? exported (variableRules.front ++ variableRules.divider ++ key.name)).map
        (lib.ofVariable variableRules key.name)
  /-- The variable of the catalog lists formats where they stand in it with commas between them. -/
  lists : ∀ {text formats}, lib.Lists (lib.ofVariable variableRules Key.catalog.name text) formats ↔
    Format.SpellEach (items text) formats
  /-- Texts that are listed are read back. -/
  texts : ∀ texts, lib.entries (lib.ofTexts texts) = .ok (texts.map .ok)
  /-- A number is read back. -/
  number : ∀ n, lib.number (lib.ofNumber n) = .ok n.toNat

/-- Layers are merged key by key, and a later layer wins. -/
def MergesKeyByKey (layers : List (Layer lib.Value)) : Prop :=
  ∀ key : Key, Layer.last? (lib.builtIn ++ layers.flatten) key.name =
    some (lib.merged lib.builtIn layers key.name)

/-- The layers of a file, if one is named, and of the environment are merged key by key. -/
def MergesLayersOf (files : String → Option Bytes) (config : Option String)
    (environment : List (String × String)) : Prop :=
  ∀ file exported, config.mapM (lib.file files) = .ok file →
    lib.environment variableRules environment = .ok exported →
    lib.MergesKeyByKey (file.toList ++ [exported])

/-! ### Each setting -/

/-- The formats of the catalog: those of the variable, or else those of the file, or else what is
built in. -/
def CatalogIs (file : Option (Layer lib.Value)) (environment : List (String × String))
    (formats : List Format) : Prop :=
  match lastVariable? environment "SPANTAB_CATALOG" with
  | some text => Format.SpellEach (items text) formats
  | none =>
    match file.bind fun layer => layer.last? "catalog" with
    | some value => lib.Lists value formats
    | none => formats = [.words, .doubleWords]

/-- The ceiling: the number of the variable, or else that of the file, or else what is built in. -/
def CeilingIs (file : Option (Layer lib.Value)) (environment : List (String × String))
    (ceiling : Nat) : Prop :=
  match lastVariable? environment "SPANTAB_MAX_INTERVALS" with
  | some text => lib.number (lib.ofVariable variableRules "max_intervals" text) = .ok ceiling
  | none =>
    match file.bind fun layer => layer.last? "max_intervals" with
    | some value => lib.number value = .ok ceiling
    | none => ceiling = 2048

/-- The settings load, and they are the catalog and the ceiling. -/
def Settles (files : String → Option Bytes) (config : Option String)
    (environment : List (String × String)) (catalog : Catalog) (ceiling : Nat) : Prop :=
  ∃ file exported, config.mapM (lib.file files) = .ok file ∧
    lib.environment variableRules environment = .ok exported ∧
    lib.CatalogIs file environment catalog.formats ∧
    lib.CeilingIs file environment ceiling ∧ ceiling ≠ 0

end Library

end RangeLookup.Settings
