import Mathlib.Data.List.Induction
import Mathlib.Data.Nat.Digits.Defs
import RangeLookup.Numeral

/-!
# The value of a numeral

The value of a numeral is the positional one. It is read from the first digit on, so the two are
compared from the last digit to the first.
-/

namespace RangeLookup.Radix

variable {r : Radix} {weight : Char → Nat} {digits : List Char}

/-- Characters that count as digits of a radix stand for the number in that base. -/
theorem value_eq_ofDigits (inside : ∀ c ∈ digits, r.digit? c = some (weight c)) :
    r.value digits = Nat.ofDigits r.size (digits.reverse.map weight) := by
  induction digits using List.reverseRecOn with
  | nil => rfl
  | append_singleton front c ih =>
    have before : ∀ d ∈ front, r.digit? d = some (weight d) := fun d hd =>
      inside d (List.mem_append_left _ hd)
    have last : r.digit? c = some (weight c) := inside c (by simp)
    rw [value_concat, ih before, last, List.reverse_append, List.reverse_singleton,
      List.singleton_append, List.map_cons, Nat.ofDigits_cons, Option.getD_some, Nat.mul_comm,
      Nat.add_comm]

theorem read?_eq_some_iff {text : List Char} {n : Nat} : r.read? text = some n ↔
    text ≠ [] ∧ (∀ c ∈ text, r.isDigit c = true) ∧ r.value text = n := by
  unfold read?
  constructor
  · intro h
    split at h
    · next run =>
      cases h
      simp only [Bool.and_eq_true, Bool.not_eq_true', List.isEmpty_eq_false_iff,
        List.all_eq_true] at run
      exact ⟨run.1, run.2, rfl⟩
    · cases h
  · rintro ⟨filled, digits, rfl⟩
    rw [if_pos]
    simp only [Bool.and_eq_true, Bool.not_eq_true', List.isEmpty_eq_false_iff, List.all_eq_true]
    exact ⟨filled, digits⟩

end RangeLookup.Radix
