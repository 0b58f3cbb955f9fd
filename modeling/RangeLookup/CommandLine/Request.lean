import RangeLookup.Format
import RangeLookup.Log.Library
import RangeLookup.Settings

/-!
# Requests of a command line

What a command line asks for, and the libraries that a run is built on: one reads the command line,
one the settings, and one chooses the events of the log.
-/

namespace RangeLookup.CommandLine

/-- How the log is written. -/
inductive LogStyle where
  | json
  | pretty
  deriving DecidableEq, Repr

/-- The options that take a value. -/
inductive Choice where
  | name
  | format
  | config
  | ceiling
  | log
  deriving DecidableEq, Repr

/-- What a compilation is asked to do; what is not given is left to settings. -/
structure Job where
  input : Option String := none
  name : Option String := none
  formats : List Format := []
  config : Option String := none
  ceiling : Option Nat := none
  log : Option LogStyle := none

/-- What a command line asks for. -/
inductive Request where
  | compile (job : Job)
  | version
  | help
  | refused

/-- The libraries that a run is built on. -/
structure Libraries where
  /-- What the arguments of a command line ask for. -/
  parse : List String → Request
  settings : Settings.Library
  log : Log.Library

end RangeLookup.CommandLine
