/-!
# Positional numerals

A radix writes a number with its fewest digits, most significant first, and reads a run of digits of
either letter case. Main statements: `Radix.read?_write` (reading what was written gives the number
back) and `Radix.isDigit_of_mem_write` (only digits are written).
-/

namespace RangeLookup

/-- The bases of the numerals in use. -/
inductive Radix where
  | binary
  | octal
  | decimal
  | hexadecimal
  deriving DecidableEq, Repr

namespace Radix

def size : Radix → Nat
  | binary => 2
  | octal => 8
  | decimal => 10
  | hexadecimal => 16

theorem two_le_size (r : Radix) : 2 ≤ r.size := by cases r <;> decide

theorem size_le (r : Radix) : r.size ≤ 16 := by cases r <;> decide

/-- The value of a character as a digit up to fifteen, in either letter case. -/
def digitValue? (c : Char) : Option Nat :=
  if 48 ≤ c.toNat ∧ c.toNat ≤ 57 then some (c.toNat - 48)
  else if 97 ≤ c.toNat ∧ c.toNat ≤ 102 then some (c.toNat - 87)
  else if 65 ≤ c.toNat ∧ c.toNat ≤ 70 then some (c.toNat - 55)
  else none

/-- The value of a digit of this radix. -/
def digit? (r : Radix) (c : Char) : Option Nat := (digitValue? c).filter (· < r.size)

def isDigit (r : Radix) (c : Char) : Bool := (r.digit? c).isSome

/-- The number that a run of digits stands for; a character that is no digit counts as zero. -/
def value (r : Radix) (text : List Char) : Nat :=
  text.foldl (fun n c => n * r.size + (r.digit? c).getD 0) 0

/-- The number that a text stands for; one that is empty or holds no digits only stands for none. -/
def read? (r : Radix) (text : List Char) : Option Nat :=
  if !text.isEmpty && text.all r.isDigit then some (r.value text) else none

/-- The fewest digits of `n`, most significant first; zero has one digit. -/
def digits (r : Radix) (n : Nat) : List Nat :=
  if n < r.size then [n] else r.digits (n / r.size) ++ [n % r.size]
termination_by n
decreasing_by
  have := r.two_le_size
  exact Nat.div_lt_self (by omega) this

/-- The character of a digit up to fifteen, letters in upper case. -/
def digitChar (d : Nat) : Char := if d < 10 then Char.ofNat (48 + d) else Char.ofNat (55 + d)

/-- The numeral of `n`. -/
def write (r : Radix) (n : Nat) : List Char := (r.digits n).map digitChar

/-- The numeral of `n`, filled up with zeros on the left to at least `width` digits. -/
def writePadded (r : Radix) (width n : Nat) : List Char :=
  List.replicate (width - (r.write n).length) '0' ++ r.write n

theorem digits_lt (r : Radix) (n : Nat) : ∀ d ∈ r.digits n, d < r.size := by
  fun_induction r.digits n with
  | case1 n h => simpa using h
  | case2 n h ih =>
    intro d hd
    have hs := r.two_le_size
    rcases List.mem_append.1 hd with hd | hd
    · exact ih d hd
    · rw [List.mem_singleton.1 hd]; exact Nat.mod_lt _ (by omega)

theorem digits_ne_nil (r : Radix) (n : Nat) : r.digits n ≠ [] := by
  rw [digits]; split <;> simp

theorem write_ne_nil (r : Radix) (n : Nat) : r.write n ≠ [] := by
  simp [write, digits_ne_nil]

theorem digitValue?_digitChar : ∀ d < 16, digitValue? (digitChar d) = some d := by decide

theorem digit?_digitChar {r : Radix} {d : Nat} (h : d < r.size) :
    r.digit? (digitChar d) = some d := by
  have := r.size_le
  simp [digit?, digitValue?_digitChar d (by omega), h]

theorem isDigit_of_mem_write {r : Radix} {n : Nat} {c : Char} (h : c ∈ r.write n) :
    r.isDigit c = true := by
  obtain ⟨d, hd, rfl⟩ := List.mem_map.1 h
  simp [isDigit, digit?_digitChar (r.digits_lt n d hd)]

theorem value_concat (r : Radix) (text : List Char) (c : Char) :
    r.value (text ++ [c]) = r.value text * r.size + (r.digit? c).getD 0 := by
  simp [value, List.foldl_append]

/-- Reading what was written gives the number back. -/
theorem value_write (r : Radix) (n : Nat) : r.value (r.write n) = n := by
  unfold write
  fun_induction r.digits n with
  | case1 n h => simp [value, digit?_digitChar h]
  | case2 n h ih =>
    have hs := r.two_le_size
    have hm : n % r.size < r.size := Nat.mod_lt _ (by omega)
    rw [List.map_append, List.map_singleton, value_concat, ih, digit?_digitChar hm]
    simpa [Nat.mul_comm] using Nat.div_add_mod n r.size

theorem read?_write (r : Radix) (n : Nat) : r.read? (r.write n) = some n := by
  have digits : (r.write n).all r.isDigit = true :=
    List.all_eq_true.2 fun c hc => isDigit_of_mem_write hc
  have filled : (r.write n).isEmpty = false := by simp [r.write_ne_nil n]
  simp [read?, digits, filled, r.value_write n]

theorem write_injective (r : Radix) {m n : Nat} (h : r.write m = r.write n) : m = n := by
  rw [← r.value_write m, h, r.value_write]

/-- Leading zeros do not change a numeral. -/
theorem value_zeros_append (r : Radix) (k : Nat) (text : List Char) :
    r.value (List.replicate k '0' ++ text) = r.value text := by
  have zero : r.digit? '0' = some 0 := by cases r <;> decide
  induction k with
  | zero => rfl
  | succ k ih => simpa [value, List.replicate_succ, zero] using ih

end Radix

/-- The text behind a plus sign, which a number without a sign may have in front. -/
def dropPlus : List Char → List Char
  | '+' :: rest => rest
  | text => text

/-- The sign in front of a number, as a factor, and the number. -/
def splitSign : List Char → Int × List Char
  | '+' :: rest => (1, rest)
  | '-' :: rest => (-1, rest)
  | text => (1, text)

/-- Whether a number fits 64 bits with sign. -/
def fitsWord (i : Int) : Bool := -9223372036854775808 ≤ i && i ≤ 9223372036854775807

/-- A number without a sign within 64 bits; a plus in front is allowed. -/
def readWord? (text : List Char) : Option Nat :=
  (Radix.decimal.read? (dropPlus text)).filter (· < 18446744073709551616)

/-- The decimal numeral of `n`. -/
def decimal (n : Nat) : String := String.ofList (Radix.decimal.write n)

/-- The hexadecimal numeral of `n`, letters in upper case. -/
def hexadecimal (n : Nat) : String := String.ofList (Radix.hexadecimal.write n)

/-- The hexadecimal numeral of `n` behind its marker. -/
def markedHex (n : Nat) : String := "0x" ++ hexadecimal n

end RangeLookup
