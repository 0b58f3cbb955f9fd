import RangeLookup.Numeral

/-!
# Costs of encodings

Bytes come first, and among encodings of equal size the number of comparisons in the worst case.
Both are 32-bit words that stop at their greatest value, and the greatest cost of all stands for an
encoding that does not exist. `le_iff_rank_le` reads the order as an order of numbers, which is how
it is reasoned about; `le_least_iff` and `least_mem` say what a least cost is.
-/

namespace RangeLookup

/-- The word nearest to a number. -/
def saturate (n : Nat) : UInt32 := UInt32.ofNat (min n 4294967295)

theorem toNat_saturate (n : Nat) : (saturate n).toNat = min n 4294967295 := by
  rw [saturate, UInt32.toNat_ofNat', Nat.mod_eq_of_lt (by omega)]

/-- Bytes of an encoding, and the comparisons before a table is reached. -/
structure Cost where
  size : UInt32
  depth : UInt32
  deriving DecidableEq, Repr, Inhabited

namespace Cost

/-- The cost of an encoding that does not exist. -/
def infinite : Cost := ⟨4294967295, 4294967295⟩

/-- Whether the cost is that of an encoding that exists. -/
def isFinite (c : Cost) : Bool := c != infinite

/-- The size decides, and between equal sizes the depth. -/
instance : LE Cost := ⟨fun a b => a.size < b.size ∨ a.size = b.size ∧ a.depth ≤ b.depth⟩

instance : LT Cost := ⟨fun a b => a.size < b.size ∨ a.size = b.size ∧ a.depth < b.depth⟩

instance (a b : Cost) : Decidable (a ≤ b) :=
  inferInstanceAs (Decidable (a.size < b.size ∨ a.size = b.size ∧ a.depth ≤ b.depth))

instance (a b : Cost) : Decidable (a < b) :=
  inferInstanceAs (Decidable (a.size < b.size ∨ a.size = b.size ∧ a.depth < b.depth))

instance : Ord Cost := ⟨fun a b => (compare a.size b.size).then (compare a.depth b.depth)⟩

instance : Min Cost := ⟨fun a b => if a ≤ b then a else b⟩

/-- The place of a cost in the order. -/
def rank (c : Cost) : Nat := c.size.toNat * 4294967296 + c.depth.toNat

/-- Bytes of the comparison and branch of a split. -/
def splitSize : Nat := 8

/-- Bytes of the base that a table with relative offsets needs. -/
def baseSize : Nat := 4

/-- The cost of a comparison between two encodings; none exists unless both do. -/
def split (left right : Cost) : Cost :=
  if left.isFinite && right.isFinite then
    ⟨saturate (splitSize + left.size.toNat + right.size.toNat),
     saturate (max left.depth.toNat right.depth.toNat + 1)⟩
  else infinite

/-- The least of the costs, infinite if there are none. -/
def least (costs : List Cost) : Cost := costs.foldr min infinite

/-- The written form: size and depth, or two infinities. -/
def text (c : Cost) : String :=
  if c.isFinite then "(" ++ decimal c.size.toNat ++ ", " ++ decimal c.depth.toNat ++ ")"
  else "(inf, inf)"

theorem ext {a b : Cost} (hs : a.size = b.size) (hd : a.depth = b.depth) : a = b := by
  cases a; cases b; cases hs; cases hd; rfl

theorem le_iff_rank_le {a b : Cost} : a ≤ b ↔ a.rank ≤ b.rank := by
  show a.size < b.size ∨ a.size = b.size ∧ a.depth ≤ b.depth ↔ _
  have := a.depth.toNat_lt
  have := b.depth.toNat_lt
  rw [UInt32.lt_iff_toNat_lt, ← UInt32.toNat_inj, UInt32.le_iff_toNat_le, rank, rank]
  omega

theorem lt_iff_rank_lt {a b : Cost} : a < b ↔ a.rank < b.rank := by
  show a.size < b.size ∨ a.size = b.size ∧ a.depth < b.depth ↔ _
  have := a.depth.toNat_lt
  have := b.depth.toNat_lt
  rw [UInt32.lt_iff_toNat_lt, ← UInt32.toNat_inj, UInt32.lt_iff_toNat_lt, rank, rank]
  omega

theorem rank_inj {a b : Cost} : a.rank = b.rank ↔ a = b := by
  constructor
  · intro h
    have := a.depth.toNat_lt
    have := b.depth.toNat_lt
    unfold rank at h
    exact ext (UInt32.toNat_inj.1 (by omega)) (UInt32.toNat_inj.1 (by omega))
  · rintro rfl; rfl

theorem rank_le_infinite (c : Cost) : c.rank ≤ infinite.rank := by
  have := c.size.toNat_lt
  have := c.depth.toNat_lt
  show c.rank ≤ 4294967295 * 4294967296 + 4294967295
  unfold rank
  omega

theorem le_infinite (c : Cost) : c ≤ infinite := le_iff_rank_le.2 c.rank_le_infinite

theorem rank_min (a b : Cost) : (min a b).rank = min a.rank b.rank := by
  show (if a ≤ b then a else b).rank = _
  split
  · next h => rw [Nat.min_eq_left (le_iff_rank_le.1 h)]
  · next h => rw [le_iff_rank_le] at h; rw [Nat.min_eq_right (by omega)]

/-- A lower bound of all costs is a lower bound of the least one. -/
theorem le_least_iff {c : Cost} {costs : List Cost} : c ≤ least costs ↔ ∀ d ∈ costs, c ≤ d := by
  induction costs with
  | nil => simpa [least] using le_infinite c
  | cons d rest ih =>
    have : c ≤ min d (least rest) ↔ c ≤ d ∧ c ≤ least rest := by
      simp only [le_iff_rank_le, rank_min, Nat.le_min]
    rw [List.forall_mem_cons, ← ih, ← this]
    rfl

theorem least_le {c : Cost} {costs : List Cost} (h : c ∈ costs) : least costs ≤ c :=
  le_least_iff.1 (le_iff_rank_le.2 (Nat.le_refl _)) c h

/-- The least cost is one of the costs, or there is none that is finite. -/
theorem least_mem {costs : List Cost} (h : least costs ≠ infinite) : least costs ∈ costs := by
  induction costs with
  | nil => exact absurd rfl h
  | cons d rest ih =>
    have step : least (d :: rest) = if d ≤ least rest then d else least rest := rfl
    rw [step] at h ⊢
    split
    · exact List.mem_cons_self
    · next hd =>
      rw [if_neg hd] at h
      exact List.mem_cons_of_mem _ (ih h)

theorem split_infinite_left (c : Cost) : split infinite c = infinite := by
  simp [split, isFinite]

theorem split_infinite_right (c : Cost) : split c infinite = infinite := by
  simp [split, isFinite]

end Cost

end RangeLookup
