import RangeLookup.Numeral
import RangeLookup.Text.Blank
import RangeLookup.Text.Numeric

/-!
# Patterns of a log filter

A log filter looks at values by patterns. A pattern is a regular expression with groups, sets in
brackets, repetitions and escapes. The values at hand are numbers, which a pattern never matches, so
that only one question is left: which texts are patterns. `isPattern` answers it, by a scan that
keeps the groups which are still open, and how high what it has read towers: groups, sets,
repetitions, rows and alternatives may stand within each other, but not beyond `greatestHeight`.

Counts of repetitions and names in braces do not occur: the text of a value ends before a closing
brace, so that a brace that would have to be closed is an error.
-/

namespace RangeLookup.Log

namespace Pattern

/-- How the text of a pattern is read from a place on. -/
structure Mode where
  /-- Blanks and remarks behind `#` are no part of the pattern. -/
  spaced : Bool
  /-- Signs are characters of all scripts; otherwise they are bytes, and none may be above 127. -/
  wide : Bool
  /-- Upper and lower case are the same. -/
  caseless : Bool

namespace Mode

/-- Patterns start without blanks between signs, for characters of all scripts, in their case. -/
def initial : Mode := ⟨false, true, false⟩

/-- Whether a pattern can have single signs. The cases of letters and the kinds of characters are
known for bytes alone, so that no sign of all scripts can be taken in either case. -/
def hasSigns (m : Mode) : Bool := !(m.wide && m.caseless)

/-- The text behind blanks and remarks; `remark` says that it starts within a remark. -/
def skipBlanks : Bool → List Char → List Char
  | _, [] => []
  | true, c :: rest => skipBlanks (c != '\n') rest
  | false, c :: rest =>
    if Text.isBlank c then skipBlanks false rest
    else if c = '#' then skipBlanks true rest
    else c :: rest

/-- The text from the next sign on. -/
def skip (m : Mode) (text : List Char) : List Char :=
  if m.spaced then skipBlanks false text else text

end Mode

/-- What an escape or a single character stands for. -/
inductive Item where
  /-- The character with the code. -/
  | sign (code : Nat)
  /-- Characters of a kind. -/
  | kind
  /-- A place between characters. -/
  | place
  deriving DecidableEq

/-- The number of as many hexadecimal digits, and the text after it. -/
def hexDigits? (m : Mode) : Nat → Nat → List Char → Option (Nat × List Char)
  | 0, value, text => some (value, text)
  | count + 1, value, text =>
    match m.skip text with
    | [] => none
    | c :: rest => do
      let digit ← Radix.hexadecimal.digit? c
      hexDigits? m count (16 * value + digit) rest

/-- A character given by its number. A byte above 127 is no character. -/
def numbered? (m : Mode) (count : Nat) (text : List Char) : Option (Item × List Char) := do
  let (code, rest) ← hexDigits? m count 0 text
  if code.isValidChar && (m.wide || count != 2 || code < 128) then some (.sign code, rest) else none

/-- Whether a backslash in front makes a character stand for itself. -/
def standsForItself (c : Char) : Bool :=
  c.toNat < 128 && !c.isAlphanum && c != '<' && c != '>'

/-- What follows a backslash. Kinds of characters of all scripts, and the edges of words of all
scripts, are not for patterns; nor is what is not of a kind, for bytes above 127 would be in it. -/
def escape? (m : Mode) : List Char → Option (Item × List Char)
  | [] => none
  | c :: rest =>
    if c = 'x' then numbered? m 2 rest
    else if c = 'u' then numbered? m 4 rest
    else if c = 'U' then numbered? m 8 rest
    else if c = 'd' ∨ c = 's' ∨ c = 'w' then if m.wide then none else some (.kind, rest)
    else if standsForItself c then some (.sign c.toNat, rest)
    else if c = 'a' then some (.sign 7, rest)
    else if c = 'f' then some (.sign 12, rest)
    else if c = 't' then some (.sign 9, rest)
    else if c = 'n' then some (.sign 10, rest)
    else if c = 'r' then some (.sign 13, rest)
    else if c = 'v' then some (.sign 11, rest)
    else if c = 'A' ∨ c = 'z' then some (.place, rest)
    else if c = 'b' then if m.wide || rest.head? == some '\x7b' then none else some (.place, rest)
    else if c = 'B' ∨ c = '<' ∨ c = '>' then if m.wide then none else some (.place, rest)
    else none

/-! ### Heights -/

/-- How many groups, sets, repetitions, rows and alternatives may stand within each other. -/
def greatestHeight : Nat := 250

/-- The height of some parts together: a single one is as high as it is, and several are a row or
alternatives, one higher than the highest. -/
def bundled : List Nat → Nat
  | [] => 0
  | [height] => height
  | heights => heights.foldr max 0 + 1

/-! ### Sets -/

/-- The names of sets between colons. -/
def setNames : List String :=
  ["alnum", "alpha", "ascii", "blank", "cntrl", "digit", "graph", "lower", "print", "punct",
   "space", "upper", "word", "xdigit"]

/-- Whether a named set is turned around, and the text behind it; the text given starts behind the
bracket that opens the set. -/
def namedSet? : List Char → Option (Bool × List Char)
  | ':' :: text =>
    let around := text.head? == some '^'
    let text := if around then text.drop 1 else text
    let name := String.ofList (text.takeWhile (· != ':'))
    match text.dropWhile (· != ':') with
    | ':' :: ']' :: rest => if name ∈ setNames then some (around, rest) else none
    | _ => none
  | _ => none

/-- A set whose bracket is still open. -/
structure OpenSet where
  /-- The height of what stands before the last operator, if there has been one. -/
  left : Option Nat
  /-- The heights of the members since then. -/
  members : List Nat

namespace OpenSet

/-- The height of what is within the brackets; an operator is one higher than its sides. -/
def height (s : OpenSet) : Nat :=
  match s.left with
  | none => bundled s.members
  | some left => max left (bundled s.members) + 1

/-- The set with one more member. -/
def add (s : OpenSet) (height : Nat) : OpenSet := { s with members := height :: s.members }

/-- The set with an operator behind what it holds. -/
def operator (s : OpenSet) : OpenSet := ⟨some s.height, []⟩

end OpenSet

/-- The number of dashes up to the next sign, and the text from there on; `remark` says that the
text starts within a remark. -/
def skipDashes (m : Mode) : Bool → Nat → List Char → Nat × List Char
  | _, count, [] => (count, [])
  | true, count, c :: rest => skipDashes m (c != '\n') count rest
  | false, count, c :: rest =>
    if c = '-' then skipDashes m false (count + 1) rest
    else if m.spaced && Text.isBlank c then skipDashes m false count rest
    else if m.spaced && c == '#' then skipDashes m true count rest
    else (count, c :: rest)

/-- A set with what only its start can hold, and the text after that: a sign that turns the set
around, dashes that stand for themselves, or a closing bracket that does. -/
def setStart? (m : Mode) (text : List Char) : Option (OpenSet × List Char) := do
  let text ← match m.skip text with
    | '^' :: rest => if m.wide then some (m.skip rest) else none
    | text => some text
  match skipDashes m false 0 text with
  | (_, []) => none
  | (0, ']' :: rest) => if m.hasSigns then some (⟨none, [0]⟩, rest) else none
  | (count, text) =>
    if m.hasSigns || count == 0 then some (⟨none, List.replicate count 0⟩, text) else none

/-- One character of a set, or characters of a kind. -/
def setItem? (m : Mode) : List Char → Option (Item × List Char)
  | [] => none
  | '\\' :: rest => escape? m rest
  | c :: rest => some (.sign c.toNat, rest)

/-- Whether an item can be in a set. -/
def isMember (m : Mode) : Item → Bool
  | .sign code => m.hasSigns && (m.wide || code < 128)
  | .kind => true
  | .place => false

/-- The character that says whether a dash stands for itself: the next one that is no blank, where
of a remark nothing but its sign is left out. -/
def decisiveChar (m : Mode) (text : List Char) : Option Char :=
  let blanksOff (text : List Char) := text.dropWhile Text.isBlank
  if m.spaced then
    match blanksOff text with
    | '#' :: rest => (blanksOff rest).head?
    | text => text.head?
  else text.head?

/-- A member of a set or a range of them, and the text after it. -/
def setRange? (m : Mode) (text : List Char) : Option (List Char) := do
  let (low, rest) ← setItem? m text
  let single := if isMember m low then some rest else none
  match m.skip rest with
  | [] => none
  | '-' :: rest =>
    if decisiveChar m rest = some ']' ∨ decisiveChar m rest = some '-' then single
    else
      let (high, rest) ← setItem? m (m.skip rest)
      match low, high with
      | .sign a, .sign b => if a ≤ b && isMember m high then some rest else none
      | _, _ => none
  | _ => single

/-- The height of a set and the text behind it; the sets of `outer` are open around it. -/
def set? (m : Mode) : Nat → OpenSet → List OpenSet → List Char → Option (Nat × List Char)
  | 0, _, _, _ => none
  | fuel + 1, s, outer, text =>
    match m.skip text with
    | [] => none
    | '[' :: rest =>
      match namedSet? rest with
      | some (around, rest) =>
        if m.hasSigns && (m.wide || !around) then set? m fuel (s.add 0) outer rest else none
      | none => do
        let (inner, rest) ← setStart? m rest
        set? m fuel inner (s :: outer) rest
    | ']' :: rest =>
      match outer with
      | [] => some (s.height + 1, rest)
      | around :: outer => set? m fuel (around.add (s.height + 1)) outer rest
    | '&' :: '&' :: rest => set? m fuel s.operator outer rest
    | '-' :: '-' :: rest => set? m fuel s.operator outer rest
    | '~' :: '~' :: rest => set? m fuel s.operator outer rest
    | text => do set? m fuel (s.add 0) outer (← setRange? m text)

/-! ### Groups -/

/-- The letters that change how a pattern is read or matched, and the dash before those that end. -/
def flagSigns : List Char := ['i', 'm', 's', 'U', 'u', 'R', 'x', '-']

/-- The flags in front of a colon or a closing bracket: each sign once, and no dash at the end. -/
def flags? (text : List Char) : Option (List Char × List Char) :=
  let flags := text.takeWhile fun c => c != ':' && c != ')'
  let rest := text.dropWhile fun c => c != ':' && c != ')'
  if rest.isEmpty || !(flags.all (· ∈ flagSigns)) || !(flags.eraseDups.length == flags.length) ||
      flags.getLast? == some '-' then none
  else some (flags, rest)

/-- What flags say of one letter, or what was said before. -/
def flagged (flags : List Char) (letter : Char) (before : Bool) : Bool :=
  if letter ∈ flags.takeWhile (· != '-') then true
  else if letter ∈ flags.dropWhile (· != '-') then false
  else before

/-- The mode after flags. -/
def Mode.set (m : Mode) (flags : List Char) : Mode :=
  ⟨flagged flags 'x' m.spaced, flagged flags 'u' m.wide, flagged flags 'i' m.caseless⟩

/-- Whether a character can stand in the name of a group, or start it. -/
def isNameChar (first : Bool) (c : Char) : Bool :=
  if first then c == '_' || Text.isAlphabetic c
  else c == '_' || c == '.' || c == '[' || c == ']' || Text.isAlphanumeric c

/-- The name of a group up to the bracket that ends it, and the text after that. -/
def groupName? (text : List Char) : Option (List Char × List Char) :=
  match text.takeWhile (· != '>'), text.dropWhile (· != '>') with
  | c :: name, _ :: rest =>
    if isNameChar true c && name.all (isNameChar false) then some (c :: name, rest) else none
  | _, _ => none

/-- A group whose bracket is still open, or the pattern as a whole. -/
structure OpenGroup where
  mode : Mode
  /-- The heights of the alternatives that are complete. -/
  alternatives : List Nat
  /-- The heights of the items of the present alternative, last one first. -/
  items : List Nat

namespace OpenGroup

/-- The height of what is within the brackets. -/
def height (g : OpenGroup) : Nat := bundled (bundled g.items :: g.alternatives)

/-- The group with one more item. -/
def add (g : OpenGroup) (height : Nat) : OpenGroup := { g with items := height :: g.items }

/-- The group with a repetition of its last item. -/
def repeated (g : OpenGroup) : OpenGroup :=
  match g.items with
  | [] => g
  | height :: items => { g with items := (height + 1) :: items }

/-- The group at the start of its next alternative. -/
def next (g : OpenGroup) : OpenGroup :=
  { g with alternatives := bundled g.items :: g.alternatives, items := [] }

end OpenGroup

/-- A scan of a pattern: the innermost open group and those around it, whether the last item can be
repeated, and the names of groups so far. -/
structure Scan where
  group : OpenGroup
  outer : List OpenGroup
  repeatable : Bool
  names : List (List Char)

namespace Scan

/-- The scan at the start of a pattern. -/
def initial : Scan := ⟨⟨.initial, [], []⟩, [], false, []⟩

/-- The mode at the place of the scan. -/
def mode (s : Scan) : Mode := s.group.mode

/-- The scan within a new group that is read in the given mode. -/
def enter (s : Scan) (m : Mode) : Scan :=
  { s with group := ⟨m, [], []⟩, outer := s.group :: s.outer, repeatable := false }

/-- The scan behind an item of the given height. -/
def add (s : Scan) (height : Nat) : Scan :=
  { s with group := s.group.add height, repeatable := true }

/-- The scan behind flags. They are an item, but not one that can be repeated. -/
def addFlags (s : Scan) (flags : List Char) : Scan :=
  { s with group := { s.group.add 0 with mode := s.mode.set flags }, repeatable := false }

/-- The scan behind an opening bracket and what belongs to it. -/
def openGroup? (s : Scan) (text : List Char) : Option (Scan × List Char) :=
  let named (text : List Char) : Option (Scan × List Char) := do
    let (name, rest) ← groupName? text
    if name ∈ s.names then none
    else some ({ s.enter s.mode with names := name :: s.names }, rest)
  match s.mode.skip text with
  | '?' :: '<' :: '!' :: _ => none
  | '?' :: 'P' :: '<' :: rest => named rest
  | '?' :: '<' :: rest => named rest
  | '?' :: rest => do
    match ← flags? rest with
    | (flags, ':' :: rest) => return (s.enter (s.mode.set flags), rest)
    | ([], _) => none
    | (flags, rest) => return (s.addFlags flags, rest.drop 1)
  | rest => some (s.enter s.mode, rest)

/-- The scan behind the bracket that closes a group. -/
def closeGroup? (s : Scan) : Option Scan :=
  match s.outer with
  | [] => none
  | around :: outer => some ({ s with group := around, outer }.add (s.group.height + 1))

/-- The scan behind the next sign of a text that is not empty. -/
def next? (s : Scan) (c : Char) (rest : List Char) : Option (Scan × List Char) :=
  if c = '(' then s.openGroup? rest
  else if c = ')' then s.closeGroup?.map fun s => (s, rest)
  else if c = '|' then some ({ s with group := s.group.next, repeatable := false }, rest)
  else if c = '[' then do
    let (set, rest) ← setStart? s.mode rest
    let (height, rest) ← set? s.mode (rest.length + 1) set [] rest
    return (s.add height, rest)
  else if c = '*' ∨ c = '+' ∨ c = '?' then
    if s.repeatable then
      some ({ s with group := s.group.repeated },
        if rest.head? = some '?' then rest.drop 1 else rest)
    else none
  else if c = '\x7b' then none
  else if c = '.' then if s.mode.wide then some (s.add 0, rest) else none
  else if c = '\\' then do
    let (escaped, rest) ← escape? s.mode rest
    if s.mode.hasSigns || escaped == .place then some (s.add 0, rest) else none
  else if s.mode.hasSigns || c == '^' || c == '$' then some (s.add 0, rest)
  else none

/-- Whether a scan comes to an end with every group closed and nothing too high. -/
def completes : Nat → Scan → List Char → Bool
  | 0, _, _ => false
  | fuel + 1, s, text =>
    match s.mode.skip text with
    | [] => s.outer.isEmpty && s.group.height ≤ greatestHeight
    | c :: rest =>
      match s.next? c rest with
      | some (s, rest) => completes fuel s rest
      | none => false

end Scan

end Pattern

/-- Whether a text is a pattern. -/
def isPattern (text : List Char) : Bool :=
  Pattern.Scan.completes (text.length + 1) .initial text

end RangeLookup.Log
