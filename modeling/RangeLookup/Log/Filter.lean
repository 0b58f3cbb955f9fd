import RangeLookup.Log.Directive
import RangeLookup.Log.Library

/-!
# Filters of a log

A filter chooses the events of a log. It is a list of directives with commas between them. Of the
directives for parts the most specific one decides. A directive for a piece of work only ever adds
events, and only if the filter asks for enough detail to follow the work at all.
-/

namespace RangeLookup.Log

/-- A filter as its directives. -/
structure Filter where
  directives : List Directive

/-- The texts of the directives of a filter; empty ones do not count. -/
def directiveTexts (text : String) : List (List Char) :=
  (text.toList.splitOn ',').filter fun piece => !piece.isEmpty

/-- The filter of a text. A directive that cannot be read spoils them all. -/
def Filter.read? (text : String) : Option Filter :=
  ((directiveTexts text).mapM Directive.read?).map Filter.mk

/-- The filter of the directives of a text that can be read. -/
def Filter.readPart (text : String) : Filter :=
  ⟨(directiveTexts text).filterMap Directive.read?⟩

/-! ### Directives for parts -/

/-- Whether the name of a part starts with the one of a directive. -/
def Directive.covers (d : Directive) (part : String) : Bool :=
  match d.part with
  | none => true
  | some front => front.toList.isPrefixOf part.toList

/-- Whether a directive is for parts of the program, and not for a piece of work. -/
def Directive.isForParts (d : Directive) : Bool :=
  d.work.isNone && d.fields.all fun f => f.value.isNone

/-- Whether a directive for parts is about an event: it has all the fields that are named. -/
def Directive.admits (d : Directive) (e : Event) : Bool :=
  d.isForParts && d.covers e.part && d.fields.all fun f => f.name ∈ e.fields

/-- Whether the first text comes before the second in a dictionary. -/
def precedes : List Char → List Char → Bool
  | _, [] => false
  | [], _ :: _ => true
  | c :: text, d :: other => c.toNat < d.toNat || c == d && precedes text other

/-- The name of the part of a directive; none comes before any. -/
def Directive.partText (d : Directive) : List Char := (d.part.getD "").toList

/-- The names of the fields of a directive, one behind the other with ends between them. -/
def Directive.fieldText (d : Directive) : List Char :=
  d.fields.flatMap fun f => f.name.toList ++ ['\x00']

/-- The length of the name of a part; none is shorter than any. -/
def Directive.partSize (d : Directive) : Nat :=
  match d.part with
  | none => 0
  | some part => part.utf8ByteSize + 1

/-- Whether the second of two directives for parts decides before the first: the longer name does,
then the greater number of fields, then what comes later in a dictionary. Of directives that are
alike the later decides. -/
def Directive.yieldsTo (d e : Directive) : Bool :=
  if d.partSize ≠ e.partSize then d.partSize < e.partSize
  else if d.fields.length ≠ e.fields.length then d.fields.length < e.fields.length
  else if d.partText ≠ e.partText then precedes d.partText e.partText
  else !precedes e.fieldText d.fieldText

/-- The directive that decides on an event. -/
def Filter.decisive? (f : Filter) (e : Event) : Option Directive :=
  (f.directives.filter fun d => d.admits e).foldl (fun best d =>
    match best with
    | none => some d
    | some b => if b.yieldsTo d then some d else some b) none

/-! ### Directives for work -/

/-- Whether a field describes the work with the number it gives. -/
def FieldMatch.describes (f : FieldMatch) (work : Span) : Bool :=
  match (work.fields.find? fun e => e.1 = f.name).map (·.2), f.value with
  | some _, none => true
  | some n, some value => value = .number n
  | none, _ => false

/-- Whether a directive is for the events during a piece of work. -/
def Directive.isDuring (d : Directive) (work : Span) : Bool :=
  (d.work.isSome || !d.fields.isEmpty) && d.covers work.part &&
    (match d.work with
      | none => true
      | some name => name == work.name) && d.fields.all fun f => f.describes work

/-- Whether two directives differ in nothing but the detail. -/
def Directive.isAlike (d e : Directive) : Bool :=
  d.part == e.part && d.work == e.work && d.fields == e.fields

/-- The directives to which no later one is alike. -/
def lastOfEach : List Directive → List Directive
  | [] => []
  | d :: rest => if rest.any d.isAlike then lastOfEach rest else d :: lastOfEach rest

/-- The greatest detail that a filter asks for; values have to be looked at in full detail. -/
def Filter.detail (f : Filter) : Nat :=
  if f.directives.any fun d => d.fields.any fun field => field.value.isSome then 5
  else f.directives.foldl (fun detail d => max detail d.detail) 0

/-- Whether the filter follows a piece of work, and a directive for it shows the event. -/
def Filter.showsDuring (f : Filter) (work : Span) (e : Event) : Bool :=
  work.level.detail ≤ f.detail &&
    (lastOfEach f.directives).any fun d => d.isDuring work && e.level.detail ≤ d.detail

/-- Whether the log shows an event. -/
def Filter.shows (f : Filter) (e : Event) : Bool :=
  (match e.during with
    | none => false
    | some work => f.showsDuring work e) ||
  (match f.decisive? e with
    | none => false
    | some d => e.level.detail ≤ d.detail)

/-- The library that the filters of the program come from. -/
def directives : Library where
  Filter := Filter
  read? := Filter.read?
  readPart := Filter.readPart
  shows := Filter.shows

end RangeLookup.Log
