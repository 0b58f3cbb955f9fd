import RangeLookup.Log.Event

/-!
# Libraries of log filters
-/

namespace RangeLookup.Log

/-- The functions of a library that chooses the events of a log by filters. -/
structure Library where
  Filter : Type
  /-- The filter of a text, if all of it can be read. -/
  read? : String → Option Filter
  /-- The filter of what can be read of a text. -/
  readPart : String → Filter
  shows : Filter → Event → Bool

end RangeLookup.Log
