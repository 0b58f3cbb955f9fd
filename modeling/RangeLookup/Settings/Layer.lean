import RangeLookup.Decimal.Reading
import RangeLookup.Settings.Library
import RangeLookup.Toml

/-!
# Layers of files and of the environment

Keys know no letter case; only plain letters matter, because no other letter is the capital of one in
a key that is read.
-/

namespace RangeLookup.Settings

mutual

/-- A value of a file as the value of a setting. -/
def ofValue (source : Source) : Toml.Value → Setting
  | .text s => .text source s
  | .integer i => .integer source i
  | .float x => .float source x
  | .boolean b => .boolean source b
  | .moment s => .text source s
  | .array items => .list source (ofValues source items)
  | .table entries => .table source (ofEntries source entries)

def ofValues (source : Source) : List Toml.Value → List Setting
  | [] => []
  | v :: rest => ofValue source v :: ofValues source rest

def ofEntries (source : Source) : List (String × Toml.Value) → List (String × Setting)
  | [] => []
  | (key, v) :: rest => (key, ofValue source v) :: ofEntries source rest

end

/-- The layer of a file with the given name. -/
def ofFile? (name content : String) : Option (Layer Setting) :=
  (Toml.read? content).map fun entries =>
    (ofEntries (.file name) entries).map fun e => (lowerCase e.1, e.2)

/-- The text behind a piece that it starts with. -/
def behind? : List Char → List Char → Option (List Char)
  | [], text => some text
  | c :: piece, d :: text => if c = d then behind? piece text else none
  | _ :: _, [] => none

/-- The text with a dot wherever a piece stands in it, from behind as many characters on. -/
def dotted (piece : List Char) : Nat → List Char → List Char
  | _, [] => []
  | skipped + 1, _ :: rest => dotted piece skipped rest
  | 0, c :: rest =>
    if !piece.isEmpty && piece.isPrefixOf (c :: rest) then
      '.' :: dotted piece (piece.length - 1) rest
    else c :: dotted piece 0 rest

/-- The key that a variable sets, if its name says that it is one of the settings. -/
def keyOfVariable? (rules : VariableRules) (name : String) : Option String :=
  (behind? (lowerCase (rules.front ++ rules.divider)).toList (lowerCase name).toList).map fun key =>
    String.ofList (dotted rules.nesting.toList 0 key)

/-- A whole number with or without a sign, within 64 bits. -/
def integer? (text : List Char) : Option Int :=
  let (sign, digits) := splitSign text
  ((Radix.decimal.read? digits).map fun n => sign * (n : Int)).filter fitsWord

/-- The value that a variable sets: what it reads as, else text, or for some keys the texts between
separators. -/
def ofVariable (rules : VariableRules) (key value : String) : Setting :=
  let text := value.toList
  let word := lowerCase value
  if !rules.typed then .text .environment value
  else if word = "true" then .boolean .environment true
  else if word = "false" then .boolean .environment false
  else match integer? text with
    | some i => .integer .environment i
    | none =>
      match Decimal.float? text with
      | some x => .float .environment x
      | none =>
        if key ∈ rules.listKeys then
          .list .environment
            ((text.splitOn rules.separator).map fun s => .text .environment (String.ofList s))
        else .text .environment value

/-- The layer of the environment; variables of other names are not settings. -/
def ofEnvironment (rules : VariableRules) (environment : List (String × String)) : Layer Setting :=
  environment.filterMap fun (name, value) =>
    (keyOfVariable? rules name).map fun key => (key, ofVariable rules key value)

end RangeLookup.Settings
