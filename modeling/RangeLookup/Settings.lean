import RangeLookup.Catalog
import RangeLookup.Format.Reading
import RangeLookup.Settings.Library

/-!
# Settings of a run

The catalog of table formats and the ceiling on the number of ranges. A library puts them together
from layers, a file if one is named and the environment on top of it, and they are then checked as a
whole.
-/

namespace RangeLookup

/-- The formats that tables may use, and how many ranges a document may have. -/
structure Settings where
  catalog : Catalog
  ceiling : Nat

namespace Settings

/-- The formats of the entries of a catalog. -/
def readFormats : List (Except Error String) → Except Error (List Format)
  | [] => .ok []
  | entry :: rest => do
    let f ← (Format.parse (← entry)).mapError .badFormat
    return f :: (← readFormats rest)

/-- The settings of a list of formats and a ceiling, if they are valid. -/
def validate (formats : List Format) (ceiling : Nat) : Except Error Settings :=
  if ceiling = 0 then .error .noCapacity
  else return ⟨← (Catalog.ofList formats).mapError .badCatalog, ceiling⟩

namespace Library

variable (lib : Library)

/-- The layers that are given, lowest first: that of a file, if one is named, and that of the
environment. -/
def layers (files : String → Option Bytes) (config : Option String)
    (environment : List (String × String)) : Except Error (List (Layer lib.Value)) := do
  let file ← config.mapM (lib.file files)
  return file.toList ++ [← lib.environment variableRules environment]

/-- The settings that layers give. -/
def ofLayers (layers : List (Layer lib.Value)) : Except Error Settings := do
  let valueOf := fun key : Key => lib.merged lib.builtIn layers key.name
  let formats ← readFormats (← lib.entries (valueOf .catalog))
  validate formats (← lib.number (valueOf .ceiling))

/-- The settings that a file, if one is named, and the environment give. -/
def load (files : String → Option Bytes) (config : Option String)
    (environment : List (String × String)) : Except Error Settings := do
  lib.ofLayers (← lib.layers files config environment)

end Library

end Settings

end RangeLookup
