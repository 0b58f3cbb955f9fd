import RangeLookup.Toml.Statement
import RangeLookup.Toml.TaggedMoment

/-!
# TOML documents

The table that the statements of a document build.
-/

namespace RangeLookup.Toml

/-- A line break of two characters counts as a line feed. -/
def unifyBreaks : List Char → List Char
  | '\r' :: '\n' :: rest => '\n' :: unifyBreaks rest
  | c :: rest => c :: unifyBreaks rest
  | [] => []

/-- The mark that may stand in front of a document is no part of it. -/
def dropMark : List Char → List Char
  | '\uFEFF' :: rest => rest
  | text => text

/-- The table that statements build; keys belong to the table of the last header. -/
def build : Table → List String → List Statement → Option Table
  | t, _, [] => some t
  | t, _, .header path :: rest => do build (← t.addHeader path) path rest
  | t, _, .element path :: rest => do build (← t.addElement path) path rest
  | t, current, .assign path v :: rest => do
    build (← t.update .implied (fun inner => inner.assign path v) current) current rest

/-- The entries of a document; a document that breaks the rules has none. -/
def read? (text : String) : Option (List (String × Value)) := do
  let text := unifyBreaks (dropMark text.toList)
  let t ← build .empty [] (← statements? (text.length + 1) text)
  match ← resolveTable? t.close with
  | .table entries => some entries
  | _ => none

end RangeLookup.Toml
