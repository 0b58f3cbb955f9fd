import RangeLookup.Folder
import RangeLookup.Settings.Error

/-!
# Files of settings

A file that has the name is taken if the name ends in `.toml`; where there is none, the name with
that ending is tried.
-/

namespace RangeLookup.Settings

/-- A file of settings: its name from the current folder, and what it holds. -/
structure File where
  name : String
  content : Bytes

/-- The names that are tried for a name, in order. -/
def candidates (name : String) : List String := name :: (FileName.withEnding? "toml" name).toList

/-- The file for a name among the files that exist. -/
def locate (files : String → Option Bytes) (name : String) : Except Error File :=
  match files name with
  | some content =>
    if FileName.ending? name = some "toml" then .ok ⟨FileName.plain name, content⟩
    else .error (.unknownFile name)
  | none =>
    match FileName.withEnding? "toml" name with
    | none => .error (.missingFile name)
    | some longer =>
      match files longer with
      | some content => .ok ⟨longer, content⟩
      | none => .error (.missingFile name)

end RangeLookup.Settings
