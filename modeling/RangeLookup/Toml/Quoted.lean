import RangeLookup.Numeral
import RangeLookup.Toml.Value

/-!
# The strings of TOML

There are four kinds of strings. Each reader starts behind the opening quotes and stops behind the
closing ones. Line breaks have been reduced to line feeds before.
-/

namespace RangeLookup.Toml

/-- The characters that strings and comments hold as they are: all but controls, tabs excepted. -/
def isPlain (c : Char) : Bool := c == '\t' || (32 ≤ c.toNat && c.toNat != 127)

def isSpace (c : Char) : Bool := c == ' ' || c == '\t'

/-- The character that hexadecimal digits number; there is none for a surrogate. -/
def numbered? (digits : List Char) : Option Char :=
  let n := Radix.hexadecimal.value digits
  if digits.all Radix.hexadecimal.isDigit && n.isValidChar then some (Char.ofNat n) else none

/-- The character that a letter behind a backslash stands for. -/
def named? : Char → Option Char
  | 'b' => some '\x08'
  | 't' => some '\t'
  | 'n' => some '\n'
  | 'f' => some '\x0c'
  | 'r' => some '\r'
  | '"' => some '"'
  | '\\' => some '\\'
  | _ => none

/-- One more character in front of what was read. -/
def push (c : Char) (r : Option (List Char × List Char)) : Option (List Char × List Char) :=
  r.map fun (s, rest) => (c :: s, rest)

/-- A string in double quotes on one line. -/
def basic : List Char → Option (List Char × List Char)
  | '"' :: rest => some ([], rest)
  | '\\' :: 'u' :: a :: b :: c :: d :: rest => do push (← numbered? [a, b, c, d]) (basic rest)
  | '\\' :: 'U' :: a :: b :: c :: d :: e :: f :: g :: h :: rest => do
    push (← numbered? [a, b, c, d, e, f, g, h]) (basic rest)
  | '\\' :: e :: rest => do push (← named? e) (basic rest)
  | c :: rest => if isPlain c then push c (basic rest) else none
  | [] => none

/-- A string in single quotes on one line, without escapes. -/
def literal : List Char → Option (List Char × List Char)
  | '\'' :: rest => some ([], rest)
  | c :: rest => if isPlain c then push c (literal rest) else none
  | [] => none

/-- Where a string of several lines stands: in its text, or around a line break that a backslash
takes out, together with the blanks and further breaks behind it. -/
inductive Folding where
  | text
  | beforeBreak
  | afterBreak

/-- A string of several lines in triple double quotes; up to two more quotes at the end are text. -/
def basicLines : Folding → List Char → Option (List Char × List Char)
  | .beforeBreak, '\n' :: rest => basicLines .afterBreak rest
  | .beforeBreak, c :: rest => if isSpace c then basicLines .beforeBreak rest else none
  | .afterBreak, '\n' :: rest => basicLines .afterBreak rest
  | .afterBreak, ' ' :: rest => basicLines .afterBreak rest
  | .afterBreak, '\t' :: rest => basicLines .afterBreak rest
  | _, '"' :: '"' :: '"' :: '"' :: '"' :: rest => some (['"', '"'], rest)
  | _, '"' :: '"' :: '"' :: '"' :: rest => some (['"'], rest)
  | _, '"' :: '"' :: '"' :: rest => some ([], rest)
  | _, '\\' :: '\n' :: rest => basicLines .afterBreak rest
  | _, '\\' :: ' ' :: rest => basicLines .beforeBreak rest
  | _, '\\' :: '\t' :: rest => basicLines .beforeBreak rest
  | _, '\\' :: 'u' :: a :: b :: c :: d :: rest => do
    push (← numbered? [a, b, c, d]) (basicLines .text rest)
  | _, '\\' :: 'U' :: a :: b :: c :: d :: e :: f :: g :: h :: rest => do
    push (← numbered? [a, b, c, d, e, f, g, h]) (basicLines .text rest)
  | _, '\\' :: e :: rest => do push (← named? e) (basicLines .text rest)
  | _, c :: rest => if c = '\n' || isPlain c then push c (basicLines .text rest) else none
  | _, [] => none

/-- A string of several lines in triple single quotes; up to two more quotes at the end are text. -/
def literalLines : List Char → Option (List Char × List Char)
  | '\'' :: '\'' :: '\'' :: '\'' :: '\'' :: rest => some (['\'', '\''], rest)
  | '\'' :: '\'' :: '\'' :: '\'' :: rest => some (['\''], rest)
  | '\'' :: '\'' :: '\'' :: rest => some ([], rest)
  | c :: rest => if c = '\n' || isPlain c then push c (literalLines rest) else none
  | [] => none

/-- The line break directly behind the opening quotes of several lines is no text. -/
def dropBreak : List Char → List Char
  | '\n' :: rest => rest
  | text => text

/-- A string of any kind. -/
def quoted? : List Char → Option (String × List Char)
  | '"' :: '"' :: '"' :: rest => (basicLines .text (dropBreak rest)).map asString
  | '"' :: rest => (basic rest).map asString
  | '\'' :: '\'' :: '\'' :: rest => (literalLines (dropBreak rest)).map asString
  | '\'' :: rest => (literal rest).map asString
  | _ => none
where
  asString (r : List Char × List Char) : String × List Char := (String.ofList r.1, r.2)

end RangeLookup.Toml
