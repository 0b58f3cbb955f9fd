import RangeLookup.Log.Event
import RangeLookup.Numeral

/-!
# Lines of a log

Events are written to a log: as text, or as records of names and quoted texts on one line.
-/

namespace RangeLookup.Log

/-- One character of a quoted text in a record: quotes, backslashes and controls are escaped. -/
def escape (c : Char) : List Char :=
  if c = '"' ∨ c = '\\' then ['\\', c]
  else if c = '\n' then ['\\', 'n']
  else if c.toNat < 32 then ['\\', 'u'] ++ Radix.hexadecimal.writePadded 4 c.toNat
  else [c]

def quoted (text : String) : String := String.ofList ('"' :: text.toList.flatMap escape ++ ['"'])

/-- A name and a text of a record. -/
def entry (name text : String) : String := quoted name ++ ":" ++ quoted text

/-- An event as a record, with the reason that it gives, if it does. -/
def Event.record (e : Event) (reason : Option String) : String :=
  let entries := [entry "level" e.level.name, entry "message" e.message] ++
    (reason.map (entry "error")).toList
  "\x7b" ++ String.intercalate "," entries ++ "\x7d"

/-- An event as text, with the reason that it gives, if it does. -/
def Event.line (e : Event) (reason : Option String) : String :=
  e.text ++ (reason.map (": " ++ ·)).getD ""

end RangeLookup.Log
