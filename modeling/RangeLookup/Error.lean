import RangeLookup.Format
import RangeLookup.RangeStore
import RangeLookup.Text.Quoted

/-!
# What can go wrong

The errors between a document of ranges and its lookup tables, one constructor a cause, and the
wording of each cause.
-/

namespace RangeLookup

/-- The two halves of a table entry. -/
inductive Field where
  | offset
  | span
  deriving DecidableEq, Repr

def Field.text : Field → String
  | offset => "offset"
  | span => "span"

/-- Why no lookup tables come out. Lines count from one, ranges from zero. -/
inductive Error where
  /-- The line does not start with a hexadecimal range. -/
  | malformedInput (line : Nat) (content : String)
  /-- The upper bound on the line lies below the lower bound. -/
  | invertedRange (line : Nat) (low high : UInt32)
  /-- The line starts below the start of the range that is still open. -/
  | unsortedInput (line : Nat) (low : UInt32)
  /-- The store refuses a range. -/
  | interval (reason : PushError)
  /-- There are no ranges. -/
  | emptyInput
  /-- There are more ranges than the ceiling allows. -/
  | capacityExceeded (limit : Nat)
  /-- No format of the catalog holds the range at the index, which is the first such range. -/
  | infeasible (index : Nat) (range : Interval)
  /-- No byte layout is defined for the format. -/
  | unsupportedPacking (format : Format)
  /-- A value does not fit into its half of a table entry. -/
  | valueOutOfRange (field : Field) (value : UInt32) (width : Width)
  /-- Packed data stop within an entry. -/
  | unexpectedEndOfData
  /-- The text is no table format. -/
  | invalidFormat (text : String)
  /-- The format stands twice in the catalog. -/
  | duplicateFormat (format : Format)
  /-- The catalog has no formats. -/
  | emptyCatalog
  /-- A line of the document is not valid UTF-8. -/
  | notText
  /-- The document does not exist. -/
  | missingDocument
  deriving DecidableEq

namespace Error

/-- The wording of bounds, behind the marker of hexadecimal numerals. -/
def bounds (low high : UInt32) : String := markedHex low.toNat ++ ".." ++ markedHex high.toNat

def message : Error → String
  | malformedInput line content =>
    "cannot parse input line " ++ decimal line ++ ": " ++ Text.quote content
  | invertedRange line low high =>
    "input line " ++ decimal line ++ " has an inverted range: " ++ bounds low high
  | unsortedInput line low =>
    "input line " ++ decimal line ++ " is out of order: " ++ markedHex low.toNat ++
      " starts before the previous range"
  | interval reason => reason.message
  | emptyInput => "the input is empty"
  | capacityExceeded limit => "input too big: more than " ++ decimal limit ++ " intervals"
  | infeasible index range =>
    "no table format can encode interval " ++ decimal index ++ " (" ++
      bounds range.low range.high ++ "); its span does not fit any format in the catalog"
  | unsupportedPacking format =>
    "internal error: no packing is defined for table format " ++ format.text
  | valueOutOfRange field value width =>
    "internal error: " ++ field.text ++ " value " ++ markedHex value.toNat ++
      " does not fit in " ++ decimal width.bits ++ " bits"
  | unexpectedEndOfData => "packed table data ended unexpectedly"
  | invalidFormat text =>
    "invalid table format " ++ Text.quote text ++
      ": expected BASExSPAN with widths in 1..=32"
  | duplicateFormat format =>
    "table format " ++ format.text ++ " appears more than once in the catalog"
  | emptyCatalog => "the table format catalog is empty"
  | notText => "io error: stream did not contain valid UTF-8"
  | missingDocument => "io error: No such file or directory (os error 2)"

end Error

end RangeLookup
