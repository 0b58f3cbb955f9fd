import RangeLookup.Listing.Assembly.Reading

/-!
# An assembler for lines of data

The mnemonic says how wide the operands are, each operand is a hexadecimal number of that width, and
its bytes are stored lowest first. An operand that is too great for the width is no operand of that
directive.
-/

namespace RangeLookup

namespace DataUnit

/-- The unit that a mnemonic reserves data of. -/
def ofMnemonic? (text : List Char) : Option DataUnit :=
  [byte, word, doubleWord].find? fun unit => unit.mnemonic.toList = text

/-- The bytes of a number in one unit, if it fits. -/
def bytesOf? (unit : DataUnit) (n : Nat) : Option Bytes :=
  if n < Nat.pow 256 unit.size then some (littleEndian unit.size n) else none

theorem ofMnemonic?_mnemonic (unit : DataUnit) :
    ofMnemonic? unit.mnemonic.toList = some unit := by
  cases unit <;> decide

end DataUnit

namespace Listing

/-- The bytes that a line of data assembles to: a mnemonic, and operands behind it with commas
between them. -/
def assemble? (text : List Char) : Option Bytes := do
  let unit ← DataUnit.ofMnemonic? (text.takeWhile (· != ' '))
  let operands ← operands? (text.dropWhile (· != ' '))
  return (← operands.mapM unit.bytesOf?).flatten

end Listing

end RangeLookup
