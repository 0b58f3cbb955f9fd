import RangeLookup.Compile
import RangeLookup.Proofs.CostTable.Optimal
import RangeLookup.Proofs.FlatTable
import RangeLookup.Proofs.Lookup

/-!
# When ranges can be encoded

The infinite cost of a cell means what it says: a run has no encoding exactly when some range of it
has a span that no format of the catalog holds (`cost_eq_infinite_iff`). Offsets never stand in the
way, since a run can be split until every range has a table of its own, and no finite cost reads as
the infinite one: sizes may all saturate, but the depth stays below the number of ranges, and a
store holds too few of them for a depth to saturate.

So the search for a tree fails exactly when there is such a range, and the first of them is the first
whose own cell is infinite, which is where the error looks for it.
-/

namespace RangeLookup

/-- Some format of the catalog holds the span of the range. -/
def Catalog.HoldsSpan (c : Catalog) (r : Interval) : Prop :=
  ∃ f ∈ c.formats, f.span.holds r.span = true

instance (c : Catalog) (r : Interval) : Decidable (c.HoldsSpan r) :=
  inferInstanceAs (Decidable (∃ f ∈ c.formats, f.span.holds r.span = true))

namespace FlatTable

variable {s : RangeStore} {t : FlatTable} {k : Nat}

/-- A table that exists holds the spans of all its ranges. -/
theorem holds_span (h : t.cost s ≠ Cost.infinite) (hl : t.last < s.size) (hk : t.Holds k) :
    t.format.span.holds (s.get k).span = true := by
  have exists_table := cost_ne_infinite_iff.1 h
  rw [feasible, Bool.and_eq_true, List.all_eq_true] at exists_table
  exact exists_table.2 _ ((RangeStore.mem_slice_iff hl).2 ⟨k, hk.1, hk.2, rfl⟩)

/-- A range whose span fits has a table of its own: its offset is zero. -/
theorem cost_single_ne_infinite {f : Format} (hk : k < s.size)
    (h : f.span.holds (s.get k).span = true) : (mk f k k).cost s ≠ Cost.infinite := by
  rw [cost_ne_infinite_iff, feasible, Bool.and_eq_true, List.all_eq_true]
  constructor
  · have room : 0 < f.base.values := Nat.pow_pos Nat.two_pos
    simpa [base, Width.holds_iff] using room
  · intro r hr
    obtain ⟨i, hi, hik, rfl⟩ := (RangeStore.mem_slice_iff hk).1 hr
    obtain rfl : i = k := Nat.le_antisymm hik hi
    exact h

end FlatTable

/-- Every range of a run is held by a table of a tree for it. -/
theorem Decision.Covers.exists_holds {tree : Decision} {first last k : Nat}
    (h : tree.Covers first last) (hf : first ≤ k) (hl : k ≤ last) :
    ∃ t ∈ tree.leaves, t.Holds k ∧ t.last ≤ last := by
  induction tree generalizing first last with
  | leaf table =>
    obtain ⟨rfl, rfl, -⟩ := h
    exact ⟨table, by simp, ⟨hf, hl⟩, Nat.le_refl _⟩
  | split pivot left right ihl ihr =>
    obtain ⟨hle, hlt, hcl, hcr⟩ := h
    rw [leaves_split]
    by_cases hk : k ≤ pivot
    · obtain ⟨t, ht, holds, le⟩ := ihl hcl hf hk
      exact ⟨t, List.mem_append_left _ ht, holds, by omega⟩
    · obtain ⟨t, ht, holds, le⟩ := ihr hcr (by omega) hl
      exact ⟨t, List.mem_append_right _ ht, holds, le⟩

namespace CostTable

variable {s : RangeStore} {c : Catalog} {t : CostTable} {first last k : Nat}

/-- A finite cell is no deeper than its run is long. -/
theorem depth_cost_le (ht : optimize s c = .ok t) (hle : first ≤ last) (hl : last < s.size)
    (hfin : t.cost first last ≠ Cost.infinite) :
    (t.cost first last).depth.toNat ≤ last - first := by
  obtain ⟨tree, hc⟩ := exists_chooses ht hle hl hfin
  rw [← hc.cost_of_optimize ht] at hfin ⊢
  exact (Decision.depth_cost_le hfin).trans (hc.covers hle).height_le

theorem cost_single_ne_infinite (ht : optimize s c = .ok t) (hk : k < s.size)
    (h : c.HoldsSpan (s.get k)) : t.cost k k ≠ Cost.infinite := by
  obtain ⟨f, hf, span⟩ := h
  have table := FlatTable.cost_single_ne_infinite hk span
  rw [cost_eq_leastCost ht (Nat.le_refl _) hk]
  exact Cost.ne_infinite_of_le (Decision.leastCost_le_table (t := ⟨f, k, k⟩) hf) table

/-- A run of ranges whose spans fit has an encoding: its first range in a table of its own, and the
rest of it in what the induction gives. -/
theorem cost_ne_infinite (ht : optimize s c = .ok t) (hle : first ≤ last) (hl : last < s.size)
    (hs : ∀ k, first ≤ k → k ≤ last → c.HoldsSpan (s.get k)) :
    t.cost first last ≠ Cost.infinite := by
  have single := cost_single_ne_infinite ht (by omega) (hs first (Nat.le_refl _) hle)
  induction hn : last - first generalizing first with
  | zero =>
    obtain rfl : first = last := by omega
    exact single
  | succ n ih =>
    have rest : t.cost (first + 1) last ≠ Cost.infinite := by
      apply ih (by omega) _ (cost_single_ne_infinite ht (by omega) (hs _ (by omega) (by omega)))
        (by omega)
      intro k hf hk
      exact hs k (by omega) hk
    have single_depth := depth_cost_le ht (Nat.le_refl _) (by omega) single
    have rest_depth := depth_cost_le ht (by omega) hl rest
    have store := s.size_le
    rw [cost_eq_leastCost ht hle hl]
    apply Cost.ne_infinite_of_le (Decision.leastCost_le_split (Nat.le_refl _) (by omega))
    rw [← cost_eq_leastCost ht (Nat.le_refl _) (by omega), ← cost_eq_leastCost ht (by omega) hl]
    exact Cost.split_ne_infinite single rest (by omega)

/-- A run has no encoding exactly when it contains a range whose span no format holds. -/
theorem cost_eq_infinite_iff (ht : optimize s c = .ok t) (hle : first ≤ last) (hl : last < s.size) :
    t.cost first last = Cost.infinite ↔
      ∃ k, first ≤ k ∧ k ≤ last ∧ ¬ c.HoldsSpan (s.get k) := by
  constructor
  · intro infinite
    by_contra none
    push Not at none
    exact cost_ne_infinite ht hle hl none infinite
  · rintro ⟨k, hf, hk, spanless⟩
    by_contra hfin
    obtain ⟨tree, hc⟩ := exists_chooses ht hle hl hfin
    have encoding := hc.encoding ht hle
    obtain ⟨table, mem, holds, le⟩ := encoding.covers.exists_holds hf hk
    rw [← hc.cost_of_optimize ht] at hfin
    have span := FlatTable.holds_span (Decision.leaves_finite hfin table mem) (by omega) holds
    exact spanless ⟨table.format, encoding.formats table mem, span⟩

theorem cost_single_eq_infinite_iff (ht : optimize s c = .ok t) (hk : k < s.size) :
    t.cost k k = Cost.infinite ↔ ¬ c.HoldsSpan (s.get k) := by
  rw [cost_eq_infinite_iff ht (Nat.le_refl _) hk]
  constructor
  · rintro ⟨i, hi, hik, spanless⟩
    obtain rfl : i = k := Nat.le_antisymm hik hi
    exact spanless
  · intro spanless
    exact ⟨k, Nat.le_refl _, Nat.le_refl _, spanless⟩

theorem total_eq_infinite_iff (ht : optimize s c = .ok t) (hn : 0 < s.size) :
    t.total = Cost.infinite ↔ ∃ k < s.size, ¬ c.HoldsSpan (s.get k) := by
  rw [total_eq ht, cost_eq_infinite_iff ht (Nat.zero_le _) (by omega)]
  constructor
  · rintro ⟨k, -, hk, spanless⟩
    exact ⟨k, by omega, spanless⟩
  · rintro ⟨k, hk, spanless⟩
    exact ⟨k, Nat.zero_le _, by omega, spanless⟩

/-- The error names the first range whose span no format holds, if there is one. -/
theorem infeasible_eq (ht : optimize s c = .ok t) (hk : k < s.size)
    (hno : ¬ c.HoldsSpan (s.get k)) (before : ∀ j < k, c.HoldsSpan (s.get j)) :
    t.infeasible = .infeasible k (s.get k) := by
  have found : ((List.range t.size).find? fun i => !(t.cost i i).isFinite) = some k := by
    rw [(filled_optimize ht).size, List.find?_range_eq_some]
    refine ⟨?_, List.mem_range.2 hk, ?_⟩
    · simp [Cost.isFinite, (cost_single_eq_infinite_iff ht hk).2 hno]
    · intro j hj
      have single := cost_single_ne_infinite ht (by omega) (before j hj)
      simp [Cost.isFinite, single]
  rw [infeasible, found, (filled_optimize ht).store]
  rfl

/-- The first range whose span no format holds, if there is any. -/
theorem exists_first_spanless (h : ∃ k < s.size, ¬ c.HoldsSpan (s.get k)) :
    ∃ k < s.size, ¬ c.HoldsSpan (s.get k) ∧ ∀ j < k, c.HoldsSpan (s.get j) := by
  refine ⟨Nat.find h, (Nat.find_spec h).1, (Nat.find_spec h).2, ?_⟩
  intro j hj
  have size := (Nat.find_spec h).1
  by_contra spanless
  exact Nat.find_min h hj ⟨by omega, spanless⟩

/-- Without an encoding there is no tree, and with one there is. -/
theorem tree_eq_error_iff (ht : optimize s c = .ok t) (hn : 0 < s.size) {e : Error} :
    t.tree = .error e ↔ t.total = Cost.infinite ∧ t.infeasible = e := by
  by_cases hfin : t.total.isFinite = true
  · obtain ⟨tree, htree, -⟩ := exists_tree ht hn hfin
    simp [htree, Cost.isFinite_iff.1 hfin]
  · have infinite : t.total = Cost.infinite := by
      by_contra finite
      exact hfin (Cost.isFinite_iff.2 finite)
    rw [tree, if_neg hfin]
    simp [infinite]

theorem exists_tree_iff (ht : optimize s c = .ok t) (hn : 0 < s.size) :
    (∃ tree, t.tree = .ok tree) ↔ ∀ k < s.size, c.HoldsSpan (s.get k) := by
  constructor
  · rintro ⟨tree, htree⟩ k hk
    by_contra spanless
    have infinite := (total_eq_infinite_iff ht hn).2 ⟨k, hk, spanless⟩
    rw [(tree_eq_error_iff ht hn).2 ⟨infinite, rfl⟩] at htree
    cases htree
  · intro hs
    have finite : t.total ≠ Cost.infinite := by
      rw [Ne, total_eq_infinite_iff ht hn]
      rintro ⟨k, hk, spanless⟩
      exact spanless (hs k hk)
    obtain ⟨tree, htree, -⟩ := exists_tree ht hn (Cost.isFinite_iff.2 finite)
    exact ⟨tree, htree⟩

/-- A document has a symbolic listing exactly when it has ranges and all their spans fit. -/
theorem compile_symbolic_eq_ok_iff (c : Catalog) (document : Bytes) (ceiling : Nat) :
    (∃ text, compile document c ceiling .symbolic = .ok text) ↔
      ∃ s, Document.read document ceiling = .ok s ∧ 0 < s.size ∧
        ∀ k < s.size, c.HoldsSpan (s.get k) := by
  rw [compile_eq]
  cases hread : Document.read document ceiling with
  | error e => simp [Except.bind]
  | ok s =>
    by_cases hn : s.size = 0
    · -- without ranges there is no cost table
      simp [Except.bind, optimize, hn]
    · have pos := Nat.pos_of_ne_zero hn
      obtain ⟨t, ht⟩ := exists_optimize c pos
      simp only [Except.bind, ht, Except.ok.injEq, exists_eq_left', pos, true_and]
      rw [← exists_tree_iff ht pos]
      cases t.tree <;> simp [ListingKind.render]

/-- Ranges have no encoding exactly when the span of one of them fits no format of the catalog. That
holds of every run, whatever its length; the search for a tree fails exactly then, its error names
the first such range, and a document that is read has a symbolic listing in all other cases but the
empty one. -/
theorem infinite_iff_spanless (c : Catalog) :
    (∀ s : RangeStore, 0 < s.size → ∃ t, optimize s c = .ok t ∧
      (∀ first last, first ≤ last → last < s.size →
        (t.cost first last = Cost.infinite ↔
          ∃ k, first ≤ k ∧ k ≤ last ∧ ¬ c.HoldsSpan (s.get k))) ∧
      ((∃ e, t.tree = .error e) ↔ ∃ k < s.size, ¬ c.HoldsSpan (s.get k)) ∧
      ∀ e, t.tree = .error e → ∃ k < s.size, ¬ c.HoldsSpan (s.get k) ∧
        (∀ j < k, c.HoldsSpan (s.get j)) ∧ t.cost k k = Cost.infinite ∧
        e = .infeasible k (s.get k)) ∧
    ∀ document ceiling, (∃ text, compile document c ceiling .symbolic = .ok text) ↔
      ∃ s, Document.read document ceiling = .ok s ∧ 0 < s.size ∧
        ∀ k < s.size, c.HoldsSpan (s.get k) := by
  refine ⟨?_, compile_symbolic_eq_ok_iff c⟩
  intro s hn
  obtain ⟨t, ht⟩ := exists_optimize c hn
  refine ⟨t, ht, ?_, ?_, ?_⟩
  · intro first last hle hl
    exact cost_eq_infinite_iff ht hle hl
  · rw [← total_eq_infinite_iff ht hn]
    constructor
    · rintro ⟨e, he⟩
      exact ((tree_eq_error_iff ht hn).1 he).1
    · intro infinite
      exact ⟨t.infeasible, (tree_eq_error_iff ht hn).2 ⟨infinite, rfl⟩⟩
  · intro e he
    obtain ⟨infinite, rfl⟩ := (tree_eq_error_iff ht hn).1 he
    obtain ⟨k, hk, spanless, before⟩ :=
      exists_first_spanless ((total_eq_infinite_iff ht hn).1 infinite)
    exact ⟨k, hk, spanless, before, (cost_single_eq_infinite_iff ht hk).2 spanless,
      infeasible_eq ht hk spanless before⟩

/-- Three ranges, the second of which has a span of more than sixteen bits. -/
def wideMiddle : RangeStore :=
  ⟨#[⟨0, 0x10⟩, ⟨0x100, 0x20000⟩, ⟨0x30000, 0x30000⟩], by decide⟩

theorem infinite_iff_spanless_wideMiddle :
    0 < wideMiddle.size ∧ ∃ t, optimize wideMiddle wordsOnly = .ok t ∧
      (∀ first last, first ≤ last → last < 3 →
        (t.cost first last = Cost.infinite ↔ first ≤ 1 ∧ 1 ≤ last)) ∧
      t.tree = .error (.infeasible 1 ⟨0x100, 0x20000⟩) := by
  obtain ⟨t, ht, cells, fails, names⟩ :=
    (infinite_iff_spanless wordsOnly).1 wideMiddle (by decide)
  have only : ∀ k < 3, (¬ wordsOnly.HoldsSpan (wideMiddle.get k) ↔ k = 1) := by decide
  refine ⟨by decide, t, ht, ?_, ?_⟩
  · intro first last hle hl
    rw [cells first last hle hl]
    constructor
    · rintro ⟨k, hf, hk, spanless⟩
      obtain rfl := (only k (by omega)).1 spanless
      exact ⟨hf, hk⟩
    · rintro ⟨hf, hk⟩
      exact ⟨1, hf, hk, (only 1 (by decide)).2 rfl⟩
  · obtain ⟨e, he⟩ := fails.2 ⟨1, by decide, (only 1 (by decide)).2 rfl⟩
    obtain ⟨k, hk, spanless, -, -, rfl⟩ := names e he
    obtain rfl := (only k hk).1 spanless
    exact he

end CostTable

end RangeLookup
