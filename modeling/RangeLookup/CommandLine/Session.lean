import RangeLookup.CommandLine.Arguments
import RangeLookup.CommandLine.Run
import RangeLookup.Log.Filter
import RangeLookup.Settings.Layered

/-!
# Sessions of the program

The runs of the command line on the libraries of the program.
-/

namespace RangeLookup.CommandLine

/-- The libraries of the program. -/
def standard : Libraries where
  parse := Request.ofArguments
  settings := Settings.layered
  log := Log.directives

/-- What a request leaves behind. -/
def Request.run (request : Request) (s : Surroundings) : Outcome := standard.runRequest request s

end RangeLookup.CommandLine
