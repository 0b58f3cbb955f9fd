import RangeLookup.Error

/-!
# Operations as a machine has them

Words have 32 bits and indices 64. A sum that is too great, a difference below zero, a conversion
that loses digits and an index past the end of an array have no result, and a computation stops at
the first of them with a fault; memory is taken to suffice. The errors of the program stop a
computation as well. `plain` tells the computations in which nothing faults, and every operation
comes with a condition under which it is plain.
-/

namespace RangeLookup

/-- The ways in which an operation can have no result. -/
inductive Fault where
  /-- A sum or a shifted number has too many digits. -/
  | overflow
  /-- A difference lies below zero. -/
  | underflow
  /-- A number does not fit the type that it is converted to. -/
  | lossyCast
  /-- An index, or a bound of a slice, lies past the end. -/
  | outOfBounds
  /-- A condition does not hold that the program relies on. -/
  | assertion
  /-- A text is to be filled up to a width of more than sixteen bits. -/
  | width
  /-- A document has more lines than there are indices. -/
  | lineNumber
  deriving DecidableEq, Repr

/-- Why a computation comes to no result. -/
inductive Stop where
  /-- An error of the program. -/
  | error (reason : Error)
  /-- An operation without a result. -/
  | fault (kind : Fault)
  deriving DecidableEq

/-- Computations that stop at an error or at a fault. -/
abbrev Checked (α : Type) : Type := Except Stop α

namespace Checked

variable {α β : Type}

/-- The computation ends with the error. -/
def fail (e : Error) : Checked α := .error (.error e)

/-- The computation stops at the fault. -/
def fault (f : Fault) : Checked α := .error (.fault f)

/-- A computation in which nothing faults. -/
def plain (x : Except Error α) : Checked α := x.mapError .error

/-- The condition holds. -/
def assert (p : Prop) [Decidable p] : Checked Unit := if p then pure () else fault .assertion

/-- How many indices there are. -/
def indices : Nat := 18446744073709551616

/-- The sum of two words. -/
def addWord (a b : UInt32) : Checked UInt32 :=
  if a.toNat + b.toNat < 4294967296 then pure (a + b) else fault .overflow

/-- The difference of two words. -/
def subWord (a b : UInt32) : Checked UInt32 := if b ≤ a then pure (a - b) else fault .underflow

/-- A word with its digits moved up. -/
def shiftWord (a b : UInt32) : Checked UInt32 :=
  if b < 32 ∧ a.toNat * Nat.pow 2 b.toNat < 4294967296 then pure (a <<< b) else fault .overflow

/-- The double word of which only the given bit is set. -/
def bit (n : Nat) : Checked Nat := if n < 64 then pure (Nat.pow 2 n) else fault .overflow

/-- The sum of two indices. -/
def addIndex (a b : Nat) : Checked Nat := if a + b < indices then pure (a + b) else fault .overflow

/-- The difference of two indices. -/
def subIndex (a b : Nat) : Checked Nat := if b ≤ a then pure (a - b) else fault .underflow

/-- A number as a word. -/
def wordOf (n : Nat) : Checked UInt32 :=
  if n < 4294967296 then pure (UInt32.ofNat n) else fault .lossyCast

/-- A word as a byte. -/
def byteOf (v : UInt32) : Checked UInt8 := if v < 256 then pure v.toUInt8 else fault .lossyCast

/-- A word as one of sixteen bits. -/
def halfOf (v : UInt32) : Checked UInt16 := if v < 65536 then pure v.toUInt16 else fault .lossyCast

/-- The element of an array at an index. -/
def element (a : Array α) (i : Nat) : Checked α :=
  if h : i < a.size then pure a[i] else fault .outOfBounds

/-- The array with another element at an index. -/
def replace (a : Array α) (i : Nat) (x : α) : Checked (Array α) :=
  if h : i < a.size then pure (a.set i x) else fault .outOfBounds

/-- The elements of an array from one index to another, both included. -/
def slice (a : Array α) (first last : Nat) : Checked (List α) :=
  if first ≤ last + 1 ∧ last < a.size then pure (a.extract first (last + 1)).toList
  else fault .outOfBounds

/-- The part of a text up to a bound. -/
def upTo (text : List α) (bound : Nat) : Checked (List α) :=
  if bound ≤ text.length then pure (text.take bound) else fault .outOfBounds

/-- The part of a text from a bound on. -/
def upFrom (text : List α) (bound : Nat) : Checked (List α) :=
  if bound ≤ text.length then pure (text.drop bound) else fault .outOfBounds

section Plain

@[simp] theorem plain_ok (a : α) : plain (.ok a) = pure a := rfl

@[simp] theorem plain_error (e : Error) : plain (.error e : Except Error α) = fail e := rfl

theorem plain_bind (x : Except Error α) (f : α → Except Error β) :
    plain (x >>= f) = plain x >>= fun a => plain (f a) := by
  cases x <;> rfl

theorem plain_map (g : α → β) (x : Except Error α) :
    plain (x.map g) = plain x >>= fun a => pure (g a) := by
  cases x <;> rfl

/-- What is computed for each member of a list is plain if it is for every member. -/
theorem mapM_eq_plain {l : List α} {f : α → Checked β} {g : α → Except Error β}
    (h : ∀ a ∈ l, f a = plain (g a)) : l.mapM f = plain (l.mapM g) := by
  induction l with
  | nil => rfl
  | cons a rest ih =>
    rw [List.forall_mem_cons] at h
    rw [List.mapM_cons, List.mapM_cons, plain_bind, h.1, ih h.2]
    simp only [plain_bind]
    rfl

theorem mapM_eq_pure {l : List α} {f : α → Checked β} {g : α → β} (h : ∀ a ∈ l, f a = pure (g a)) :
    l.mapM f = pure (l.map g) := by
  have each : ∀ a ∈ l, f a = plain (pure (g a)) := h
  rw [mapM_eq_plain each, List.mapM_pure]
  rfl

theorem allM_eq_pure {l : List α} {f : α → Checked Bool} {p : α → Bool}
    (h : ∀ a ∈ l, f a = pure (p a)) : l.allM f = pure (l.all p) := by
  induction l with
  | nil => rfl
  | cons a rest ih =>
    rw [List.forall_mem_cons] at h
    rw [List.allM_cons, List.all_cons, h.1, pure_bind, ih h.2]
    cases p a <;> rfl

theorem findM?_eq_pure {l : List α} {f : α → Checked Bool} {p : α → Bool}
    (h : ∀ a ∈ l, f a = pure (p a)) : l.findM? f = pure (l.find? p) := by
  induction l with
  | nil => rfl
  | cons a rest ih =>
    rw [List.forall_mem_cons] at h
    rw [List.findM?, List.find?_cons, h.1, pure_bind, ih h.2]
    cases p a <;> rfl

end Plain

section Operations

variable {a b : UInt32} {i j n : Nat}

theorem assert_eq {p : Prop} [Decidable p] (h : p) : assert p = pure () := if_pos h

theorem addWord_eq (h : a.toNat + b.toNat < 4294967296) : addWord a b = pure (a + b) := if_pos h

theorem subWord_eq (h : b ≤ a) : subWord a b = pure (a - b) := if_pos h

theorem shiftWord_eq (hb : b < 32) (h : a.toNat * Nat.pow 2 b.toNat < 4294967296) :
    shiftWord a b = pure (a <<< b) := if_pos ⟨hb, h⟩

theorem bit_eq (h : n < 64) : bit n = pure (Nat.pow 2 n) := if_pos h

theorem addIndex_eq (h : i + j < 18446744073709551616) : addIndex i j = pure (i + j) := if_pos h

theorem subIndex_eq (h : j ≤ i) : subIndex i j = pure (i - j) := if_pos h

theorem wordOf_eq (h : n < 4294967296) : wordOf n = pure (UInt32.ofNat n) := if_pos h

theorem byteOf_eq (h : a < 256) : byteOf a = pure a.toUInt8 := if_pos h

theorem halfOf_eq (h : a < 65536) : halfOf a = pure a.toUInt16 := if_pos h

theorem element_eq {a : Array α} (h : i < a.size) : element a i = pure a[i] := dif_pos h

theorem replace_eq {a : Array α} (h : i < a.size) (x : α) : replace a i x = pure (a.set i x) :=
  dif_pos h

theorem slice_eq {a : Array α} (hi : i ≤ j + 1) (hj : j < a.size) :
    slice a i j = pure (a.extract i (j + 1)).toList := if_pos ⟨hi, hj⟩

theorem upTo_eq {text : List α} (h : n ≤ text.length) : upTo text n = pure (text.take n) := if_pos h

theorem upFrom_eq {text : List α} (h : n ≤ text.length) : upFrom text n = pure (text.drop n) :=
  if_pos h

end Operations

end Checked

end RangeLookup
