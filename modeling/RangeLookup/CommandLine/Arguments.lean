import RangeLookup.CommandLine.Request
import RangeLookup.Format.Reading

/-!
# Arguments of a command line

What the arguments of a command line ask for. Options have a long name behind two dashes, some a
letter behind one; a value follows behind an equals sign, directly behind a letter, or as the next
argument unless that starts with a dash. Only formats may be given more than once. Arguments are
taken from left to right: a question for version or help is answered where it stands, and anything
that is wrong before it refuses the line.
-/

namespace RangeLookup.CommandLine

/-- The option of a long name. -/
def Choice.ofLong? (name : String) : Option Choice :=
  if name = "asm" then some .name
  else if name = "format" then some .format
  else if name = "config" then some .config
  else if name = "max-intervals" then some .ceiling
  else if name = "output-format" then some .log
  else none

/-- The option of a letter. -/
def Choice.ofShort? (letter : Char) : Option Choice :=
  if letter = 'f' then some .format
  else if letter = 'c' then some .config
  else if letter = 'o' then some .log
  else none

/-- The style of a word. -/
def LogStyle.ofText? (text : String) : Option LogStyle :=
  if text = "json" then some .json else if text = "pretty" then some .pretty else none

/-- A value that is not there yet takes its place; a second one does not. -/
def once {α : Type} (old : Option α) (new : Option α) : Option (Option α) :=
  match old, new with
  | none, some a => some (some a)
  | _, _ => none

/-- The job with the value of an option, unless the value is wrong or was given before. -/
def Job.choose (job : Job) (choice : Choice) (value : String) : Option Job :=
  match choice with
  | .name => (once job.name (some value)).map fun name => { job with name }
  | .format =>
    (Format.read? value.toList).map fun f => { job with formats := job.formats ++ [f] }
  | .config =>
    (once job.config (if value.isEmpty then none else some value)).map fun config =>
      { job with config }
  | .ceiling =>
    (once job.ceiling ((readWord? value.toList).filter (· != 0))).map fun ceiling =>
      { job with ceiling }
  | .log => (once job.log (LogStyle.ofText? value)).map fun log => { job with log }

/-- The job with an argument that belongs to no option: the input. -/
def Job.position (job : Job) (value : String) : Option Job :=
  (once job.input (if value.isEmpty then none else some value)).map fun input => { job with input }

/-- What a single argument is. -/
inductive Argument where
  /-- Two dashes, after which nothing is an option. -/
  | divider
  | version
  | help
  /-- An option whose value stands in the same argument. -/
  | attached (choice : Choice) (value : String)
  /-- An option whose value is the next argument. -/
  | awaiting (choice : Choice)
  | position (value : String)
  | unknown
  deriving DecidableEq

/-- What an argument behind two dashes is. -/
def Argument.ofLong (text : List Char) : Argument :=
  let name := String.ofList (text.takeWhile (· != '='))
  match text.dropWhile (· != '=') with
  | [] =>
    if name = "version" then .version
    else if name = "help" then .help
    else match Choice.ofLong? name with
      | some choice => .awaiting choice
      | none => .unknown
  | _ :: value =>
    match Choice.ofLong? name with
    | some choice => .attached choice (String.ofList value)
    | none => .unknown

/-- What an argument behind one dash is. -/
def Argument.ofShort (letter : Char) (rest : List Char) : Argument :=
  if letter = 'V' then .version
  else if letter = 'h' then .help
  else match Choice.ofShort? letter, rest with
    | none, _ => .unknown
    | some choice, [] => .awaiting choice
    | some choice, '=' :: value => .attached choice (String.ofList value)
    | some choice, value => .attached choice (String.ofList value)

def Argument.ofText (text : String) : Argument :=
  match text.toList with
  | ['-', '-'] => .divider
  | '-' :: '-' :: rest => .ofLong rest
  | '-' :: letter :: rest => .ofShort letter rest
  | _ => .position text

/-- Whether an argument can be the value of the option before it. -/
def canBeValue (text : String) : Bool :=
  match text.toList with
  | '-' :: _ :: _ => false
  | _ => true

/-- What arguments behind the divider ask for. -/
def readPositions : Job → List String → Request
  | job, [] => .compile job
  | job, value :: rest =>
    match job.position value with
    | some job => readPositions job rest
    | none => .refused

/-- What arguments ask for, with an option that awaits its value. -/
def readFrom : Option Choice → Job → List String → Request
  | none, job, [] => .compile job
  | some _, _, [] => .refused
  | some choice, job, text :: rest =>
    if canBeValue text then
      match job.choose choice text with
      | some job => readFrom none job rest
      | none => .refused
    else .refused
  | none, job, text :: rest =>
    match Argument.ofText text with
    | .divider => readPositions job rest
    | .version => .version
    | .help => .help
    | .attached choice value =>
      match job.choose choice value with
      | some job => readFrom none job rest
      | none => .refused
    | .awaiting choice => readFrom (some choice) job rest
    | .position value =>
      match job.position value with
      | some job => readFrom none job rest
      | none => .refused
    | .unknown => .refused

/-- What the arguments of a command line ask for. -/
def Request.ofArguments (arguments : List String) : Request := readFrom none {} arguments

end RangeLookup.CommandLine
