import RangeLookup.CommandLine.Run
import RangeLookup.Settings.Resolution

/-!
# What a command line says

A command line that asks for a compilation falls into parts, options with their values and arguments
on their own (`Line`). What a run works with and what it fails for is told by the parts and by what
the run can see, with nothing said about how the steps of the run find it out.
-/

namespace RangeLookup.CommandLine

/-! ### Parts -/

/-- An option with its value, or an argument that belongs to no option. -/
inductive Part where
  | option (choice : Choice) (value : String)
  | position (value : String)

/-- The ways to write an option. -/
def Choice.names : Choice → List String
  | name => ["--asm"]
  | format => ["--format", "-f"]
  | config => ["--config", "-c"]
  | ceiling => ["--max-intervals"]
  | log => ["--output-format", "-o"]

/-- An argument that is not written as an option: it does not start with a dash, or is one alone. -/
def IsFree (value : String) : Prop := value.toList.head? = some '-' → value = "-"

/-- The parts of a command line from left to right. Behind two dashes nothing is an option. -/
inductive Line : List String → List Part → Prop
  | nil : Line [] []
  | next {name value : String} {choice : Choice} {rest : List String} {parts : List Part}
      (known : name ∈ choice.names) (free : IsFree value) (later : Line rest parts) :
      Line (name :: value :: rest) (.option choice value :: parts)
  | equals {name value : String} {choice : Choice} {rest : List String} {parts : List Part}
      (known : name ∈ choice.names) (later : Line rest parts) :
      Line ((name ++ "=" ++ value) :: rest) (.option choice value :: parts)
  /-- A value directly behind a letter. -/
  | attached {name value : String} {choice : Choice} {rest : List String} {parts : List Part}
      (known : name ∈ choice.names) (short : name.length = 2) (some_char : value ≠ "")
      (plain : value.toList.head? ≠ some '=') (later : Line rest parts) :
      Line ((name ++ value) :: rest) (.option choice value :: parts)
  | position {value : String} {rest : List String} {parts : List Part}
      (free : IsFree value) (later : Line rest parts) :
      Line (value :: rest) (.position value :: parts)
  | divider {rest : List String} : Line ("--" :: rest) (rest.map .position)

/-- The values that are given to an option, in order. -/
def valuesOf (choice : Choice) (parts : List Part) : List String :=
  parts.filterMap fun
    | .option other value => if other = choice then some value else none
    | .position _ => none

/-- The arguments that belong to no option. -/
def positions (parts : List Part) : List String :=
  parts.filterMap fun
    | .option .. => none
    | .position value => some value

/-- The value is the ceiling in digits behind a plus sign or none, not zero and within 64 bits. -/
inductive SpellsCeiling (value : String) (ceiling : Nat) : Prop
  | intro {sign digits : List Char} (plus : sign = [] ∨ sign = ['+']) (filled : digits ≠ [])
      (inside : ∀ c ∈ digits, DecimalDigit c) (value_eq : decimalValue digits = ceiling)
      (room : ceiling ≠ 0) (word : ceiling < 18446744073709551616)
      (text_eq : value.toList = sign ++ digits)

/-- The word for a style of the log. -/
def LogStyle.word : LogStyle → String
  | json => "json"
  | pretty => "pretty"

/-- A job holds what the parts of a command line say: the formats in order, and of everything else
what is given once. -/
structure Job.Collects (job : Job) (parts : List Part) : Prop where
  input : positions parts = job.input.toList
  name : valuesOf .name parts = job.name.toList
  formats : Format.SpellEach (valuesOf .format parts) job.formats
  config : valuesOf .config parts = job.config.toList
  ceiling : List.Forall₂ SpellsCeiling (valuesOf .ceiling parts) job.ceiling.toList
  log : valuesOf .log parts = (job.log.map LogStyle.word).toList

/-- What the documentation of the libraries promises. -/
structure Libraries.Documented (lib : Libraries) : Prop where
  /-- An accepted command line falls into parts, and its job holds what they say. -/
  parse : ∀ {arguments job}, lib.parse arguments = .compile job →
    ∃ parts, Line arguments parts ∧ job.Collects parts
  settings : lib.settings.Documented

/-! ### What a run works with -/

/-- What a run compiles: the content of the file that is named, or else the input. -/
inductive Supplied (parts : List Part) (s : Surroundings) : Bytes → Prop
  | input (unnamed : positions parts = []) : Supplied parts s s.input
  | file {name : String} {content : Bytes} (named : positions parts = [name])
      (found : s.files name = some content) : Supplied parts s content

/-- The kind of listing that is asked for: assembly where a name is given. -/
def kindAsked (parts : List Part) : ListingKind :=
  match (valuesOf .name parts).head? with
  | none => .symbolic
  | some name => .assembly name

namespace Libraries

variable (lib : Libraries) (parts : List Part) (s : Surroundings)

/-- The settings load, with the file that is named if one is, and they are the catalog and the
ceiling. -/
def Settles (catalog : Catalog) (ceiling : Nat) : Prop :=
  lib.settings.Settles s.files (valuesOf .config parts).head? s.environment catalog ceiling

/-- What a run works with where the settings load: the formats and the ceiling that are given, or
else those of the settings. -/
def Uses (catalog : Catalog) (ceiling : Nat) : Prop :=
  ∃ settled limit, lib.Settles parts s settled limit ∧
    (if valuesOf .format parts = [] then catalog = settled
      else Format.SpellEach (valuesOf .format parts) catalog.formats) ∧
    match (valuesOf .ceiling parts).head? with
    | none => ceiling = limit
    | some value => SpellsCeiling value ceiling

/-- What keeps a run from giving a listing. -/
inductive Fails : Prop
  | settings (unsettled : ∀ catalog ceiling, ¬ lib.Settles parts s catalog ceiling)
  /-- A format is given more than once. -/
  | catalog {formats : List Format} (given : Format.SpellEach (valuesOf .format parts) formats)
      (repeats : ¬ formats.Nodup)
  | document {name : String} (named : positions parts = [name]) (missing : s.files name = none)
  | compile {catalog : Catalog} {ceiling : Nat} {document : Bytes} {reason : Error}
      (uses : lib.Uses parts s catalog ceiling) (supplied : Supplied parts s document)
      (refused : compile document catalog ceiling (kindAsked parts) = .error reason)

end Libraries

end RangeLookup.CommandLine
