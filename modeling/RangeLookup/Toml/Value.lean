/-!
# The values of a TOML document

A date or a time is kept as its text in normal form.
-/

namespace RangeLookup.Toml

/-- What a TOML document holds: texts, numbers, truth values, moments in their normal form, arrays
and tables. -/
inductive Value where
  | text (s : String)
  | integer (i : Int)
  | float (x : Float)
  | boolean (b : Bool)
  | moment (s : String)
  | array (items : List Value)
  | table (entries : List (String × Value))

end RangeLookup.Toml
