import RangeLookup.Toml.Moment
import RangeLookup.Toml.Number
import RangeLookup.Toml.Quoted
import RangeLookup.Toml.Table

/-!
# The statements of a TOML document

One statement stands on a line: headers of tables, headers of elements of arrays of tables, and
values for keys. A value may run over several lines; values lie in one another at most 79 deep, and
a key has fewer than 80 parts.
-/

namespace RangeLookup.Toml

/-- What a line of a document does. -/
inductive Statement where
  | header (path : List String)
  | element (path : List String)
  | assign (path : List String) (value : Value)

def skipSpaces (text : List Char) : List Char := text.dropWhile isSpace

/-- The text behind a comment, if one comes next. -/
def skipComment : List Char → List Char
  | '#' :: rest => rest.dropWhile isPlain
  | text => text

/-- The text behind what ends a line: spaces, a comment, and the line feed or the end. -/
def endLine (text : List Char) : Option (List Char) :=
  match skipComment (skipSpaces text) with
  | [] => some []
  | '\n' :: rest => some rest
  | _ => none

/-- The text behind spaces, line feeds and comments. -/
def skipBlankLines : Nat → List Char → List Char
  | 0, text => text
  | fuel + 1, text =>
    match skipSpaces text with
    | '\n' :: rest => skipBlankLines fuel rest
    | '#' :: rest => skipBlankLines fuel (rest.dropWhile isPlain)
    | rest => rest

/-- The characters of keys without quotes. -/
def isBareChar (c : Char) : Bool := c.isAlphanum || c == '_' || c == '-'

/-- One part of a key: bare, or a string on one line. -/
def keyPart? : List Char → Option (String × List Char)
  | '"' :: rest => (basic rest).map fun (s, rest) => (String.ofList s, rest)
  | '\'' :: rest => (literal rest).map fun (s, rest) => (String.ofList s, rest)
  | text =>
    let name := text.takeWhile isBareChar
    if name.isEmpty then none else some (String.ofList name, text.dropWhile isBareChar)

/-- The parts of a key, with dots between them. -/
def keyParts? : Nat → List Char → Option (List String × List Char)
  | 0, _ => none
  | fuel + 1, text => do
    let (part, rest) ← keyPart? (skipSpaces text)
    match skipSpaces rest with
    | '.' :: rest =>
      let (parts, rest) ← keyParts? fuel rest
      return (part :: parts, rest)
    | rest => return ([part], rest)

/-- A key with fewer than 80 parts. -/
def key? (text : List Char) : Option (List String × List Char) := keyParts? 79 text

/-- The characters of numbers, dates, times and words. -/
def isWordChar (c : Char) : Bool :=
  c.isAlphanum || c == '_' || c == '-' || c == '+' || c == '.' || c == ':'

/-- Whether a time of the day seems to come next, behind one space. -/
def timeFollows : List Char → Bool
  | ' ' :: a :: b :: ':' :: _ => Radix.decimal.isDigit a && Radix.decimal.isDigit b
  | _ => false

/-- The longest word; a date takes along the time behind one space. -/
def word (text : List Char) : List Char × List Char :=
  let front := text.takeWhile isWordChar
  let rest := text.dropWhile isWordChar
  match date? front with
  | some (_, []) =>
    if timeFollows rest then
      (front ++ ' ' :: (rest.drop 1).takeWhile isWordChar, (rest.drop 1).dropWhile isWordChar)
    else (front, rest)
  | _ => (front, rest)

/-- The value of a word. -/
def scalar? (word : List Char) : Option Value :=
  if word = ['t', 'r', 'u', 'e'] then some (.boolean true)
  else if word = ['f', 'a', 'l', 's', 'e'] then some (.boolean false)
  else match integer? word with
    | some i => some (.integer i)
    | none =>
      match float? word with
      | some x => some (.float x)
      | none => (moment? .strict word).map .moment

mutual

/-- A value; `depth` is how many more values may lie in one another. -/
def value? : Nat → Nat → List Char → Option (Value × List Char)
  | 0, _, _ => none
  | fuel + 1, depth, text =>
    match depth, text with
    | 0, '[' :: _ => none
    | 0, '\x7b' :: _ => none
    | depth + 1, '[' :: rest => do
      let (items, rest) ← items? fuel depth rest
      return (.array items, rest)
    | depth + 1, '\x7b' :: rest => do
      match skipSpaces rest with
      | '\x7d' :: rest => return (.table [], rest)
      | rest =>
        let (table, rest) ← entries? fuel depth Table.empty rest
        return (.table table.close, rest)
    | _, '"' :: _ => (quoted? text).map fun (s, rest) => (.text s, rest)
    | _, '\'' :: _ => (quoted? text).map fun (s, rest) => (.text s, rest)
    | _, _ => do
      let (front, rest) := word text
      return (← scalar? front, rest)

/-- The items of an array up to its end; a comma may stand behind the last. -/
def items? : Nat → Nat → List Char → Option (List Value × List Char)
  | 0, _, _ => none
  | fuel + 1, depth, text => do
    match skipBlankLines (text.length + 1) text with
    | ']' :: rest => return ([], rest)
    | rest =>
      let (item, rest) ← value? fuel depth rest
      match skipBlankLines (rest.length + 1) rest with
      | ']' :: rest => return ([item], rest)
      | ',' :: rest =>
        let (items, rest) ← items? fuel depth rest
        return (item :: items, rest)
      | _ => none

/-- The entries of a table on one line up to its end. -/
def entries? : Nat → Nat → Table → List Char → Option (Table × List Char)
  | 0, _, _, _ => none
  | fuel + 1, depth, table, text => do
    let (key, rest) ← key? text
    let (value, rest) ← value? fuel depth (skipSpaces (← skip '=' rest))
    let table ← table.assign key value
    match skipSpaces rest with
    | '\x7d' :: rest => return (table, rest)
    | ',' :: rest => entries? fuel depth table rest
    | _ => none

end

/-- The statement that comes next, and the text of the lines after it. -/
def statement? (text : List Char) : Option (Statement × List Char) :=
  match text with
  | '[' :: '[' :: rest => do
    let (path, rest) ← key? rest
    let rest ← endLine (← skip ']' (← skip ']' rest))
    return (.element path, rest)
  | '[' :: rest => do
    let (path, rest) ← key? rest
    let rest ← endLine (← skip ']' rest)
    return (.header path, rest)
  | _ => do
    let (path, rest) ← key? text
    let rest ← skip '=' rest
    let (value, rest) ← value? (text.length + 1) 79 (skipSpaces rest)
    return (.assign path value, ← endLine rest)

/-- The statements of a text; each takes at least one character. -/
def statements? : Nat → List Char → Option (List Statement)
  | 0, _ => none
  | fuel + 1, text =>
    match skipBlankLines (text.length + 1) text with
    | [] => some []
    | text => do
      let (statement, rest) ← statement? text
      return statement :: (← statements? fuel rest)

end RangeLookup.Toml
