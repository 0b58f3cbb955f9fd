import RangeLookup.Listing.Assembly

/-!
# A machine that runs code sections

The machine works through the lines one after the other: labels and comments do nothing, a
comparison keeps whether the value is below the bound, a branch goes to the line of its label unless
it is, and a search leaves for the routine of its format. Data cannot be executed, nor can what lies
behind the last line.
-/

namespace RangeLookup

namespace Listing

/-- What the code works on. -/
structure Registers where
  eax : UInt32
  /-- The address of a table: the name of its listing and its run of ranges. -/
  ebx : Option (String × Nat × Nat)
  ecx : UInt32
  /-- Whether the value was below what was last compared with it or subtracted from it. -/
  below : Bool
  deriving DecidableEq

/-- The value was compared with a bound. -/
def Registers.compare (r : Registers) (bound : UInt32) : Registers :=
  { r with below := r.eax < bound }

/-- The line that is next, and the registers. -/
structure Machine where
  line : Nat
  registers : Registers
  deriving DecidableEq

/-- How the machine goes on. -/
inductive Outcome where
  | next (m : Machine)
  /-- It leaves the code for the search routine of a format. -/
  | left (format : Format)
  | stuck
  deriving DecidableEq

/-- What a line does. -/
def Line.execute (lines : List Line) (m : Machine) : Line → Outcome
  | opening _ _ | closing _ _ | sectionLabel _ _ | align | tableLabel _ _ | blockLabel _ _ =>
    .next ⟨m.line + 1, m.registers⟩
  | data _ => .stuck
  | compare bound => .next ⟨m.line + 1, m.registers.compare bound⟩
  | branch first last =>
    if m.registers.below then .next ⟨m.line + 1, m.registers⟩
    else match lines.findIdx? (· == blockLabel first last) with
      | some line => .next ⟨line, m.registers⟩
      | none => .stuck
  | rebase base =>
    .next ⟨m.line + 1, { m.registers.compare base with eax := m.registers.eax - base }⟩
  | loadTable name first last =>
    .next ⟨m.line + 1, { m.registers with ebx := some (name, first, last) }⟩
  | loadCount count => .next ⟨m.line + 1, { m.registers with ecx := UInt32.ofNat count }⟩
  | search format => .left format

/-- One step through the lines. -/
def Machine.step (lines : List Line) (m : Machine) : Outcome :=
  match lines[m.line]? with
  | some line => line.execute lines m
  | none => .stuck

/-- The machine comes from one state to another. -/
inductive Reaches (lines : List Line) : Machine → Machine → Prop where
  | refl (m : Machine) : Reaches lines m m
  | step {m m' m'' : Machine} : m.step lines = .next m' → Reaches lines m' m'' → Reaches lines m m''

end Listing

end RangeLookup
