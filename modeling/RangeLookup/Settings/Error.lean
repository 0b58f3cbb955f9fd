import RangeLookup.Decimal.Shortest
import RangeLookup.Error
import RangeLookup.Settings.Setting

/-!
# What can be wrong with settings

The errors of settings, one constructor a cause, and the wording of each cause.
-/

namespace RangeLookup.Settings

/-- What was found in place of the value that a setting needs. -/
inductive Found where
  | boolean (b : Bool)
  | integer (i : Int)
  /-- A number that does not fit 64 bits without a sign. -/
  | signed (i : Int)
  | float (x : Float)
  | text (s : String)
  | nothing
  | list
  | table

def booleanText (b : Bool) : String := if b then "true" else "false"

def integerText (i : Int) : String := (if i < 0 then "-" else "") ++ decimal i.natAbs

/-- Floats in messages show that they are no integers. -/
def messageFloat : FloatStyle := ⟨true⟩

def Found.message : Found → String
  | boolean b => "boolean `" ++ booleanText b ++ "`"
  | integer i => "integer `" ++ integerText i ++ "`"
  | signed i => "64-bit integer `" ++ integerText i ++ "`"
  | float x => "floating point `" ++ messageFloat.text x ++ "`"
  | text s => "string " ++ Text.quote s
  | nothing => "unit value"
  | list => "sequence"
  | table => "map"

/-- What a setting needs. -/
inductive Expected where
  | integer
  | unsigned
  | text
  | list

def Expected.message : Expected → String
  | integer => "an integer"
  | unsigned => "an unsigned 64 bit or less integer"
  | text => "a string"
  | list => "a sequence"

/-- The key of a value and the place where it was set. -/
structure Location where
  key : String
  source : Source

/-- The words that name the place. -/
def sourceText : Source → String
  | .builtIn => ""
  | .file name => " in " ++ name
  | .environment => " in the environment"

def Location.message (l : Location) : String :=
  " for key `" ++ l.key ++ "`" ++ sourceText l.source

/-- Why there are no settings. -/
inductive Error where
  /-- The file breaks the rules of its format. -/
  | malformedFile
  | missingFile (name : String)
  /-- The name of the file does not say that it holds settings. -/
  | unknownFile (name : String)
  /-- A value is not what its setting needs. -/
  | mistyped (found : Found) (expected : Expected) (location : Option Location)
  /-- The ceiling is zero. -/
  | noCapacity
  /-- An entry of the catalog is no table format. -/
  | badFormat (reason : RangeLookup.Error)
  /-- The formats do not make a catalog. -/
  | badCatalog (reason : RangeLookup.Error)

/-- The wording of a cause behind the words that all but the last share. -/
def Error.detail : Error → String
  | malformedFile => "malformed configuration file"
  | missingFile name => "configuration file \"" ++ name ++ "\" not found"
  | unknownFile name => "configuration file \"" ++ name ++ "\" is not of a registered file format"
  | mistyped found expected location =>
    "invalid type: " ++ found.message ++ ", expected " ++ expected.message ++
      ((location.map Location.message).getD "")
  | noCapacity => "max_intervals must be at least 1"
  | badFormat reason => reason.message
  | badCatalog reason => reason.message

def Error.message (e : Error) : String :=
  match e with
  | badCatalog reason => reason.message
  | e => "configuration error: " ++ e.detail

end RangeLookup.Settings
