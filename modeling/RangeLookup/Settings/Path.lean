import RangeLookup.Numeral
import RangeLookup.Settings.Setting

/-!
# Keys of settings as paths

A key is a name, followed by further names behind dots and by indices in brackets. A key of any
other form is a name as a whole.
-/

namespace RangeLookup.Setting

/-- The characters of a name on a path. -/
def isNameChar (c : Char) : Bool := c.isAlphanum || c == ' ' || c == '_' || c == '-'

/-- A name on a path, and the text after it. -/
def name? (cs : List Char) : Option (String × List Char) :=
  let name := cs.takeWhile isNameChar
  if name.isEmpty then none else some (String.ofList name, cs.dropWhile isNameChar)

/-- Spaces and tabs, which may stand around an index. -/
def isSpace (c : Char) : Bool := c == ' ' || c == '\t'

/-- An index behind its opening bracket, perhaps below zero, and the text after the closing one. -/
def index? (cs : List Char) : Option (Int × List Char) :=
  let text := cs.dropWhile isSpace
  let (sign, magnitude) := match text with
    | '-' :: rest => (-1, rest)
    | text => (1, text)
  let digits := magnitude.takeWhile Radix.decimal.isDigit
  let index : Int := sign * (Radix.decimal.value digits : Int)
  match (magnitude.dropWhile Radix.decimal.isDigit).dropWhile isSpace with
  | ']' :: rest => if !digits.isEmpty && fitsWord index then some (index, rest) else none
  | _ => none

/-- The steps of a path behind its first name. -/
def steps? : Nat → List Char → Option (List Step)
  | _, [] => some []
  | fuel + 1, '.' :: cs => do
    let (name, rest) ← name? cs
    return .child name :: (← steps? fuel rest)
  | fuel + 1, '[' :: cs => do
    let (index, rest) ← index? cs
    return .item index :: (← steps? fuel rest)
  | _, _ => none

/-- The path that a key stands for. -/
def pathOf (key : String) : List Step :=
  let cs := key.toList
  let parsed := do
    let (name, rest) ← name? cs
    return Step.child name :: (← steps? rest.length rest)
  parsed.getD [.child key]

/-- The root after a value is set at a key. -/
def assign (root : Setting) (key : String) (value : Setting) : Setting :=
  place value (pathOf key) (some root)

/-- The root after the entries of a layer are set. -/
def addLayer (root : Setting) (layer : List (String × Setting)) : Setting :=
  layer.foldl (fun root e => root.assign e.1 e.2) root

end RangeLookup.Setting
