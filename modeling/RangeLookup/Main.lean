import RangeLookup.CommandLine.Session
import RangeLookup.Log.Record

/-!
# The program

The program gathers the files, the variables and the input that a command line needs, and passes on
what the run leaves behind.
-/

namespace RangeLookup.CommandLine

/-- The bytes of a file, if it can be read. -/
def readFile? (name : String) : IO (Option Bytes) := do
  try
    return some (← IO.FS.readBinFile name).data.toList
  catch _ =>
    return none

/-- A variable as it stands in the environment: its name, an equals sign, and its value. -/
def variableOf? (definition : Bytes) : Option (String × String) := do
  let text ← Document.decode? definition
  let name := text.toList.takeWhile (· != '=')
  let value := (text.toList.dropWhile (· != '=')).drop 1
  if name.isEmpty then none else return (String.ofList name, String.ofList value)

/-- The variables that are set. -/
def readVariables : IO (List (String × String)) := do
  match ← readFile? "/proc/self/environ" with
  | some bytes => return (bytes.splitOn 0).filterMap variableOf?
  | none =>
    let names := [filterVariable, "SPANTAB_CATALOG", "SPANTAB_MAX_INTERVALS"]
    names.filterMapM fun name => do
      return (← IO.getEnv name).map fun value => (name, value)

/-- The names of the files that a job may read. -/
def Job.fileNames (job : Job) : List String :=
  ((job.config.map Settings.candidates).getD []) ++ job.input.toList

/-- What the run of a request can see; the input is read only if it is the document. -/
def Request.surroundings (request : Request) : IO Surroundings := do
  match request with
  | .compile job =>
    let files ← job.fileNames.filterMapM fun name => do
      return (← readFile? name).map fun content => (name, content)
    let input ← match job.input with
      | none => (← IO.getStdin).readBinToEnd
      | some _ => pure .empty
    return ⟨fun name => (files.find? fun f => f.1 = name).map (·.2), ← readVariables,
      input.data.toList⟩
  | _ => return ⟨fun _ => none, [], []⟩

/-- The log of a run, on the stream for errors. -/
def Outcome.writeLog (o : Outcome) (style : LogStyle) : IO Unit := do
  for event in o.log do
    let reason := if event = failed then o.reason.map Failure.message else none
    match style with
    | .json => IO.eprintln (event.record reason)
    | .pretty => IO.eprintln (event.line reason)

/-- What the program does for its arguments, and the status it ends with. -/
def program (arguments : List String) : IO UInt32 := do
  let request := Request.ofArguments arguments
  let outcome := request.run (← request.surroundings)
  match request with
  | .compile job => outcome.writeLog (job.log.getD .pretty)
  | .refused => IO.eprint helpText
  | _ => pure ()
  let out ← IO.getStdout
  out.putStr outcome.output
  out.flush
  return UInt32.ofNat outcome.status

end RangeLookup.CommandLine

def main (arguments : List String) : IO UInt32 := RangeLookup.CommandLine.program arguments
