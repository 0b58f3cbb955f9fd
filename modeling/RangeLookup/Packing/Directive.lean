import RangeLookup.Bytes
import RangeLookup.Numeral

/-!
# Data directives

A directive is a unit and operands of that unit, written in hexadecimal. A directive assembles to
its operands one after the other, lowest byte first.
-/

namespace RangeLookup

/-- The units of data: one, two or four bytes. -/
inductive DataUnit where
  | byte
  | word
  | doubleWord
  deriving DecidableEq, Repr

namespace DataUnit

/-- The mnemonic that reserves data of this unit. -/
def mnemonic : DataUnit → String
  | byte => "db"
  | word => "dw"
  | doubleWord => "dd"

/-- How many bytes the unit has. -/
def size : DataUnit → Nat
  | byte => 1
  | word => 2
  | doubleWord => 4

end DataUnit

/-- A line of data: each operand is written with at least `digits` hexadecimal digits. -/
structure Directive where
  unit : DataUnit
  digits : Nat
  operands : List Nat
  deriving DecidableEq, Repr

namespace Directive

/-- An operand as it is written. -/
def operandText (digits n : Nat) : String :=
  "0x" ++ String.ofList (Radix.hexadecimal.writePadded digits n)

/-- The mnemonic, a space, and the operands between commas. -/
def text (d : Directive) : String :=
  d.unit.mnemonic ++ " " ++ String.intercalate ", " (d.operands.map (operandText d.digits))

/-- The bytes that the directive stands for. -/
def assemble (d : Directive) : Bytes := d.operands.flatMap (littleEndian d.unit.size)

end Directive

end RangeLookup
