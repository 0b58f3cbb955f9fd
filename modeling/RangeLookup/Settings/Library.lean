import RangeLookup.Bytes
import RangeLookup.Settings.Error

/-!
# Libraries of layered settings

Settings come from several sources, and a library puts their values together. What a library does is
not fixed here: `Library` lists the functions that it offers.
-/

namespace RangeLookup.Settings

/-- The keys and values of one source, in the order in which they are set. -/
abbrev Layer (Value : Type) := List (String × Value)

/-- The settings that there are. -/
inductive Key where
  | catalog
  | ceiling
  deriving DecidableEq, Repr

/-- The key of a setting in a layer. -/
def Key.name : Key → String
  | catalog => "catalog"
  | ceiling => "max_intervals"

/-- A name or a word in small letters. -/
def lowerCase (text : String) : String := String.ofList (text.toList.map Char.toLower)

/-- How the variables of the environment are taken for settings. -/
structure VariableRules where
  /-- What the name of such a variable starts with. -/
  front : String
  /-- What stands between that and the key. -/
  divider : String
  /-- What stands in the name where the key has a dot. -/
  nesting : String
  /-- Whether the text of a variable is read as a truth value, a number or a list where it can be. -/
  typed : Bool
  /-- What stands between the items of a list. -/
  separator : Char
  /-- The keys that lists are read for. -/
  listKeys : List String

/-- The functions of a library that puts settings together from layers. -/
structure Library where
  Value : Type
  /-- The layer of the file that a name stands for among the files that exist. -/
  file : (String → Option Bytes) → String → Except Error (Layer Value)
  /-- The layer of the variables of the environment. -/
  environment : VariableRules → List (String × String) → Except Error (Layer Value)
  /-- What the text of a variable is as the value of a key. -/
  ofVariable : VariableRules → String → String → Value
  ofTexts : List String → Value
  ofNumber : UInt64 → Value
  /-- The value at a key after layers are merged, lowest first, on top of what is built in. -/
  merged : Layer Value → List (Layer Value) → String → Value
  /-- The entries of a list: the text of each, or the reason that it is no text. -/
  entries : Value → Except Error (List (Except Error String))
  number : Value → Except Error Nat

/-- Variables of settings: `SPANTAB_CATALOG=12x12,16x16` and `SPANTAB_MAX_INTERVALS=4096`. -/
def variableRules : VariableRules where
  front := "SPANTAB"
  divider := "_"
  nesting := "__"
  typed := true
  separator := ','
  listKeys := ["catalog"]

namespace Library

variable (lib : Library)

/-- The value of a setting that is given nowhere. -/
def standard : Key → lib.Value
  | .catalog => lib.ofTexts ["16x16", "32x32"]
  | .ceiling => lib.ofNumber 2048

/-- The layer that is built in. -/
def builtIn : Layer lib.Value :=
  [(Key.catalog.name, lib.standard .catalog), (Key.ceiling.name, lib.standard .ceiling)]

end Library

end RangeLookup.Settings
