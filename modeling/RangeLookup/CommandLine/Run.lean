import RangeLookup.CommandLine.Request
import RangeLookup.Compile

/-!
# Runs of the command line

What a run prints, how it ends, and what its log shows, whatever the libraries that it is built on.
The listing is printed only when every step has succeeded.
-/

namespace RangeLookup.CommandLine

/-- What a run can see: the files there are, the variables that are set, and its input. -/
structure Surroundings where
  files : String → Option Bytes
  environment : List (String × String)
  input : Bytes

/-- Why a compilation gave no listing. -/
inductive Failure where
  | settings (reason : Settings.Error)
  | compile (reason : Error)

def Failure.message : Failure → String
  | settings reason => reason.message
  | compile reason => reason.message

/-- What a run leaves behind. -/
structure Outcome where
  status : Nat
  output : String
  log : List Log.Event
  /-- The reason that the log gives for a failure. -/
  reason : Option Failure

/-! ### Events -/

/-- The settings are known and the work begins. -/
def starting : Log.Event :=
  ⟨.debug, "spantab", "compiling lookup tables", ["message", "catalog", "max_intervals", "input"],
    none⟩

/-- The document has been read. -/
def loaded : Log.Event :=
  ⟨.info, "spantab::interval", "loaded intervals", ["message", "intervals"], none⟩

/-- The work on the cost table of a store. -/
def optimizing (s : RangeStore) (c : Catalog) : Log.Span :=
  ⟨.info, "optimize", "spantab::optimizer", [("intervals", s.size), ("formats", c.formats.length)]⟩

/-- What is said of a finished cost table. -/
def priced (t : CostTable) : Log.Event :=
  if t.total.isFinite then
    ⟨.info, "spantab::optimizer", "final cost", ["message", "size", "depth"],
      some (optimizing t.store t.catalog)⟩
  else
    ⟨.warn, "spantab::optimizer", "no finite encoding exists for the interval list", ["message"],
      some (optimizing t.store t.catalog)⟩

/-- The tree has been chosen. -/
def reconstructed : Log.Event :=
  ⟨.debug, "spantab", "reconstructed decision tree", ["message", "leaves"], none⟩

/-- The run ends without a listing. -/
def failed : Log.Event :=
  ⟨.error, "spantab", "table compilation failed", ["message", "error"], none⟩

/-- The event of a step, if the step succeeded. -/
def eventOf {α : Type} (step : Except Error α) (event : α → Log.Event) : List Log.Event :=
  match step with
  | .ok a => [event a]
  | .error _ => []

/-- The events of a compilation. -/
def eventsOf (c : Compilation) : List Log.Event :=
  eventOf c.ranges (fun _ => loaded) ++ eventOf c.table priced ++
    eventOf c.tree (fun _ => reconstructed)

/-! ### Runs -/

/-- The variable that holds the filter of the log. -/
def filterVariable : String := "RUST_LOG"

/-- The filter of the log where none is set, or none that can be read. -/
def standardFilter : String := "info,spantab=debug"

/-- The value of a variable that is set. -/
def valueOf? (s : Surroundings) (name : String) : Option String :=
  (s.environment.find? fun v => v.1 = name).map (·.2)

/-- The document of a job: the file it names, or else the input. -/
def documentOf (job : Job) (s : Surroundings) : Except Error Bytes :=
  match job.input with
  | none => .ok s.input
  | some name =>
    match s.files name with
    | some document => .ok document
    | none => .error .missingDocument

/-- The kind of listing that a job asks for. -/
def kindOf (job : Job) : ListingKind :=
  match job.name with
  | none => .symbolic
  | some name => .assembly name

/-- The catalog of a job: its own formats, or else the one of the settings. -/
def catalogOf (job : Job) (settings : Settings) : Except Error Catalog :=
  if job.formats.isEmpty then .ok settings.catalog else Catalog.ofList job.formats

/-- The name and version that a run prints when asked. -/
def versionText : String := "spantab 0.1.0\n"

/-- What a run prints when asked how to use it. -/
def helpText : String :=
  "Usage: spantab [OPTIONS] [INPUT]\n\n" ++
  "      --asm <NAME>           print tables and code labelled with the name\n" ++
  "  -f, --format <BxS>         a table format; repeat for a catalog\n" ++
  "  -c, --config <CONFIG>      a file of settings\n" ++
  "      --max-intervals <N>    refuse inputs of more intervals\n" ++
  "  -o, --output-format <F>    json or pretty\n" ++
  "  -h, --help                 print this help\n" ++
  "  -V, --version              print the version\n"

namespace Libraries

variable (lib : Libraries)

/-- The filter of the log: the one that is set, if it can be read. -/
def filter (s : Surroundings) : lib.log.Filter :=
  match (valueOf? s filterVariable).bind lib.log.read? with
  | some f => f
  | none => lib.log.readPart standardFilter

/-- What a job says on the way, and the listing or the reason that there is none. -/
def perform (job : Job) (s : Surroundings) : List Log.Event × Except Failure String :=
  match lib.settings.load s.files job.config s.environment with
  | .error reason => ([], .error (.settings reason))
  | .ok settings =>
    match catalogOf job settings with
    | .error reason => ([], .error (.compile reason))
    | .ok catalog =>
      match documentOf job s with
      | .error reason => ([starting], .error (.compile reason))
      | .ok document =>
        let c := Compilation.run document catalog (job.ceiling.getD settings.ceiling) (kindOf job)
        (starting :: eventsOf c, c.listing.mapError .compile)

/-- What a job leaves behind. -/
def runJob (job : Job) (s : Surroundings) : Outcome :=
  let shown := fun events => events.filter (lib.log.shows (lib.filter s))
  match lib.perform job s with
  | (events, .ok listing) => ⟨0, listing, shown events, none⟩
  | (events, .error reason) =>
    ⟨1, "", shown (events ++ [failed]),
      if lib.log.shows (lib.filter s) failed then some reason else none⟩

/-- What a request leaves behind. -/
def runRequest (request : Request) (s : Surroundings) : Outcome :=
  match request with
  | .compile job => lib.runJob job s
  | .version => ⟨0, versionText, [], none⟩
  | .help => ⟨0, helpText, [], none⟩
  | .refused => ⟨2, "", [], none⟩

/-- What a command line leaves behind. -/
def run (arguments : List String) (s : Surroundings) : Outcome :=
  lib.runRequest (lib.parse arguments) s

end Libraries

end RangeLookup.CommandLine
