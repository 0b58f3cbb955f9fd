import RangeLookup.Listing.Assembly

/-!
# Assembly listings read back

A line is taken for what its writing says and nothing else: lines that carry the name of the listing
by how they end, since the name may begin with anything, and all other lines by how they begin. The
padding of data operands is not part of what a line says.

From the lines come the tables again. The block of a leaf names the table to search, the data under
the label of that table are assembled and unpacked in the format to search, and each entry is moved
to where the table begins.
-/

namespace RangeLookup

namespace Listing

/-- One way to write a line: a fixed text that comes first, and what the text behind it says. -/
structure Form where
  lead : List Char
  read? : List Char → Option Line

/-- The line that is written in one of the forms. -/
def readForms? (forms : List Form) (text : List Char) : Option Line :=
  forms.findSome? fun form => (form.lead.isPrefixOf? text).bind form.read?

/-- Two decimal numbers with an underscore between them. -/
def pair? (text : List Char) : Option (Nat × Nat) := do
  let first ← Radix.decimal.read? (text.takeWhile (· != '_'))
  let second ← Radix.decimal.read? ((text.dropWhile (· != '_')).drop 1)
  return (first, second)

/-- The run of ranges that a label is for, before its colon. -/
def labelRun? (text : List Char) : Option (Nat × Nat) :=
  if text.getLast? = some ':' then pair? text.dropLast else none

/-- A hexadecimal number that fits a word. -/
def word? (text : List Char) : Option UInt32 :=
  ((Radix.hexadecimal.read? text).filter (· < 4294967296)).map UInt32.ofNat

/-- An operand of a data directive, behind a space. -/
def operand? (text : List Char) : Option Nat :=
  (" 0x".toList.isPrefixOf? text).bind Radix.hexadecimal.read?

/-- The operands of a data directive, each behind a space and a comma between them. -/
def operands? (text : List Char) : Option (List Nat) := (text.splitOn ',').mapM operand?

/-- The address of a table: the name of the listing and the run of ranges. The label of the table
stands behind the last dot, whatever the name holds. -/
def address? (text : List Char) : Option (String × Nat × Nat) := do
  let label := (text.reverse.takeWhile (· != '.')).reverse
  let run ← ("T_".toList.isPrefixOf? label).bind pair?
  let name ← "_data".toList.reverse.isPrefixOf? ((text.reverse.dropWhile (· != '.')).drop 1)
  return (String.ofList name.reverse, run)

/-- The format whose widths name a search routine. -/
def format? (text : List Char) : Option Format :=
  (pair? text).bind fun widths => Format.ofBits? widths.1 widths.2

/-- The name in the comment at an end of a section. -/
def remarkName? (text : List Char) : Option String := (";; ".toList.isPrefixOf? text).map String.ofList

/-- The line begins with a text, and says what the rest of it is read as. -/
def Form.beginning {α : Type} (lead : String) (read? : List Char → Option α) (line : α → Line) :
    Form where
  lead := lead.toList
  read? rest := (read? rest).map line

/-- The line ends with a text, and says what the front of it is read as. Such lines are read
backwards. -/
def Form.ending {α : Type} (last : String) (read? : List Char → Option α) (line : α → Line) :
    Form where
  lead := last.toList.reverse
  read? rest := (read? rest.reverse).map line

section Forms

variable (part : Section) (unit : DataUnit)

def openingForm : Form := .ending (" " ++ part.text ++ " start") remarkName? (.opening · part)

def closingForm : Form := .ending (" " ++ part.text ++ " end") remarkName? (.closing · part)

def sectionLabelForm : Form :=
  .ending ("_" ++ part.text ++ ":") (some ∘ String.ofList) (.sectionLabel · part)

/-- The lines that carry the name of the listing at their front. -/
def sectionForms : List Form :=
  [openingForm .data, closingForm .data, sectionLabelForm .data,
   openingForm .code, closingForm .code, sectionLabelForm .code]

def alignForm : Form :=
  .beginning "    align " (fun rest => if rest = ['4'] then some () else none) fun _ => .align

def tableLabelForm : Form := .beginning " .T_" labelRun? fun run => .tableLabel run.1 run.2

def dataForm : Form :=
  .beginning ("    " ++ unit.mnemonic) operands? fun operands => .data ⟨unit, 1, operands⟩

def blockLabelForm : Form := .beginning "  .L_" labelRun? fun run => .blockLabel run.1 run.2

def compareForm : Form := .beginning "    cmp eax, 0x" word? .compare

def branchForm : Form := .beginning "    jae .L_" pair? fun run => .branch run.1 run.2

def rebaseForm : Form := .beginning "    sub eax, 0x" word? .rebase

def loadTableForm : Form :=
  .beginning "    mov ebx, " address? fun address =>
    .loadTable address.1 address.2.1 address.2.2

def loadCountForm : Form := .beginning "    mov ecx, " Radix.decimal.read? .loadCount

def searchForm : Form := .beginning "    jmp unicode_bsearch_" format? .search

/-- All other lines. -/
def plainForms : List Form :=
  [alignForm, tableLabelForm, dataForm .byte, dataForm .word, dataForm .doubleWord, blockLabelForm,
   compareForm, branchForm, rebaseForm, loadTableForm, loadCountForm, searchForm]

end Forms

/-- What a line says. -/
def Line.read? (text : List Char) : Option Line :=
  (readForms? sectionForms text.reverse).or (readForms? plainForms text)

/-- What the lines of a text say, each of which ends at a line feed. -/
def read? (text : String) : Option (List Line) :=
  (text.toList.splitOn '\n').dropLast.mapM Line.read?

/-- The directives that come next. -/
def leadingData : List Line → List Directive
  | .data directive :: rest => directive :: leadingData rest
  | _ => []

/-- The directives under the label of a table, in the data section with the name. -/
def directivesUnder (lines : List Line) (name : String) (first last : Nat) : List Directive :=
  let part := lines.dropWhile (· != .sectionLabel name .data)
  leadingData ((part.dropWhile (· != .tableLabel first last)).drop 1)

/-- What the block of a leaf does: from which value on, in which table and with which format it
searches how many entries. -/
structure Search where
  base : UInt32
  name : String
  first : Nat
  last : Nat
  count : Nat
  format : Format
  deriving DecidableEq

/-- The blocks of the leaves in order. -/
def searches : List Line → List Search
  | .rebase base :: .loadTable name first last :: .loadCount count :: .search format :: rest =>
    ⟨base, name, first, last, count, format⟩ :: searches rest
  | _ :: rest => searches rest
  | [] => []

end Listing

/-- The range of an entry in a table that begins at a value. -/
def Entry.rangeFrom (base : UInt32) (e : Entry) : Interval :=
  ⟨base + e.offset, base + e.offset + e.span⟩

namespace Listing

/-- The ranges that a search looks through: the data of its table, assembled and unpacked. -/
def Search.ranges? (lines : List Line) (b : Search) : Option (List Interval) :=
  let bytes := (directivesUnder lines b.name b.first b.last).flatMap Directive.assemble
  ((unpack b.format bytes).map (·.map (Entry.rangeFrom b.base))).toOption

/-- The ranges that an assembly listing holds, in the order of its blocks. -/
def ranges? (text : String) : Option (List Interval) := do
  let lines ← read? text
  let tables ← (searches lines).mapM (Search.ranges? lines)
  return tables.flatten

end Listing

end RangeLookup
