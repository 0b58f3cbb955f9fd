import RangeLookup.Document.Lines
import RangeLookup.Settings
import RangeLookup.Settings.File
import RangeLookup.Settings.Layer
import RangeLookup.Settings.Path

/-!
# The library of the program's settings

A library whose files are TOML documents, whose keys are paths and whose values give way to each other
as `Setting.place` says. Values are read as leniently as they can be: a number is also a truth value,
a word that stands for one, a text of digits or a float.
-/

namespace RangeLookup.Settings

/-- The value of a word that stands for yes or no. -/
def yesOrNo? (word : String) : Option Nat :=
  if word = "true" ∨ word = "on" ∨ word = "yes" then some 1
  else if word = "false" ∨ word = "off" ∨ word = "no" then some 0
  else none

/-- The number that a setting gives: a number, a word or truth value for one or zero, or a float
rounded to the nearest number, halves away from zero. -/
def readCeiling (s : Setting) : Except Error Nat :=
  let mistyped (found : Found) (expected : Expected) : Except Error Nat :=
    .error (.mistyped found expected (some ⟨Key.ceiling.name, s.source⟩))
  match s with
  | .boolean _ b => .ok (if b then 1 else 0)
  | .integer _ i => if 0 ≤ i then .ok i.toNat else mistyped (.signed i) .unsigned
  | .float _ x => .ok x.round.toUInt64.toNat
  | .text _ word =>
    match yesOrNo? (lowerCase word) with
    | some n => .ok n
    | none =>
      match readWord? word.toList with
      | some n => .ok n
      | none => mistyped (.text word) .integer
  | .blank => mistyped .nothing .integer
  | .list .. => mistyped .list .integer
  | .table .. => mistyped .table .integer

/-- Floats as texts of formats show no more than they need. -/
def formatFloat : FloatStyle := ⟨false⟩

/-- The text of an entry of the catalog. -/
def formatText (index : Nat) (s : Setting) : Except Error String :=
  let mistyped (found : Found) : Except Error String :=
    .error (.mistyped found .text
      (some ⟨Key.catalog.name ++ "[" ++ decimal index ++ "]", s.source⟩))
  match s with
  | .text _ s => .ok s
  | .boolean _ b => .ok (booleanText b)
  | .integer _ i => .ok (integerText i)
  | .float _ x => .ok (formatFloat.text x)
  | .blank => mistyped .nothing
  | .list .. => mistyped .list
  | .table .. => mistyped .table

/-- The texts of the entries of the catalog from the given index on. -/
def formatTexts : Nat → List Setting → List (Except Error String)
  | _, [] => []
  | index, s :: rest => formatText index s :: formatTexts (index + 1) rest

/-- The texts that a setting lists. -/
def readCatalog (s : Setting) : Except Error (List (Except Error String)) :=
  let mistyped (found : Found) : Except Error (List (Except Error String)) :=
    .error (.mistyped found .list none)
  match s with
  | .list _ items => .ok (formatTexts 0 items)
  | .boolean _ b => mistyped (.boolean b)
  | .integer _ i => mistyped (.integer i)
  | .float _ x => mistyped (.float x)
  | .text _ s => mistyped (.text s)
  | .blank => mistyped .nothing
  | .table .. => mistyped .table

/-- The value at a key of the merged layers. -/
def valueAt (root : Setting) (key : String) : Setting := (root.child? key).getD .blank

/-- The layers over each other, lowest first, and together over what is built in: an index in a key
counts in a list of these layers, not in a list that is built in. -/
def merge (builtIn : Layer Setting) (layers : List (Layer Setting)) : Setting :=
  let given := layers.foldl Setting.addLayer Setting.emptyTable
  (Setting.emptyTable.addLayer builtIn).addLayer given.entries

/-- The layer of a file. -/
def ofContent (file : File) : Except Error (Layer Setting) :=
  match (Document.decode? file.content).bind (ofFile? file.name) with
  | some layer => .ok layer
  | none => .error .malformedFile

/-- The library that the settings of the program come from. -/
abbrev layered : Library where
  Value := Setting
  file := fun files name => do ofContent (← locate files name)
  environment := fun rules exported => .ok (ofEnvironment rules exported)
  ofVariable := ofVariable
  ofTexts := fun texts => .list .builtIn (texts.map (.text .builtIn))
  ofNumber := fun n => .integer .builtIn n.toNat
  merged := fun builtIn layers key => valueAt (merge builtIn layers) key
  entries := readCatalog
  number := readCeiling

/-- The settings that a file, if there is one, and the environment give. -/
def load (file : Option File) (environment : List (String × String)) : Except Error Settings := do
  let layer ← file.mapM ofContent
  layered.ofLayers (layer.toList ++ [ofEnvironment variableRules environment])

end RangeLookup.Settings
