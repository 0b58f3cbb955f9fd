/-!
# Events of a log

How serious an event of a run is, which part of the program it comes from, and the work during which
it arises.
-/

namespace RangeLookup.Log

/-- How serious an event is. -/
inductive Level where
  | error
  | warn
  | info
  | debug
  | trace
  deriving DecidableEq, Repr

namespace Level

/-- How much detail a log has to show for an event of this level to be in it. -/
def detail : Level → Nat
  | error => 1
  | warn => 2
  | info => 3
  | debug => 4
  | trace => 5

def name : Level → String
  | error => "ERROR"
  | warn => "WARN"
  | info => "INFO"
  | debug => "DEBUG"
  | trace => "TRACE"

end Level

/-- A piece of work that events arise during, with the numbers that describe it. -/
structure Span where
  level : Level
  name : String
  part : String
  fields : List (String × Nat)
  deriving DecidableEq, Repr

/-- Something that happened: what is said of it, and the names of the values that go with it. -/
structure Event where
  level : Level
  part : String
  message : String
  fields : List String
  during : Option Span
  deriving DecidableEq, Repr

/-- The line of an event in a log. -/
def Event.text (e : Event) : String := e.level.name ++ " " ++ e.message

end RangeLookup.Log
