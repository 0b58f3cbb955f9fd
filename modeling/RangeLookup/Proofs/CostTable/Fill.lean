import RangeLookup.CostTable.Exhaustive

/-!
# What a filled cost table holds

Cells are computed one after the other in `fillOrder`, each from the cells of shorter runs that it
`reads`. That order lists every run once (`mem_fillOrder`) and a run after all shorter ones
(`pairwise_fillOrder`), so a cell is read only when it is final. The invariant of the sweep is
`Filled`: the runs done so far cost what exhaustive search says. At its end every cell is the least
cost of its run (`cost_eq_leastCost`), with no bound on the number of ranges: words that saturate
are read and written alike by both.
-/

namespace RangeLookup

/-- A run stands before another in the order of filling: it is shorter, or as long and further
left. -/
def Precedes (a b : Nat × Nat) : Prop :=
  a.2 - a.1 < b.2 - b.1 ∨ a.2 - a.1 = b.2 - b.1 ∧ a.1 < b.1

theorem mem_fillOrder {n : Nat} {run : Nat × Nat} :
    run ∈ fillOrder n ↔ run.1 ≤ run.2 ∧ run.2 < n := by
  obtain ⟨first, last⟩ := run
  simp only [fillOrder, List.mem_flatMap, List.mem_map, List.mem_range, Prod.mk.injEq]
  constructor
  · rintro ⟨length, _, first, _, rfl, rfl⟩
    omega
  · intro h
    exact ⟨last - first, by omega, first, by omega, rfl, by omega⟩

theorem pairwise_fillOrder (n : Nat) : (fillOrder n).Pairwise Precedes := by
  rw [fillOrder, List.pairwise_flatMap]
  constructor
  · -- runs of one length, from left to right
    intro length _
    rw [List.pairwise_map]
    refine List.pairwise_lt_range.imp ?_
    intro i j hlt
    exact .inr ⟨by omega, hlt⟩
  · -- a length before a greater one
    refine List.pairwise_lt_range.imp ?_
    intro shorter longer hlt a ha b hb
    obtain ⟨i, _, rfl⟩ := List.mem_map.1 ha
    obtain ⟨j, _, rfl⟩ := List.mem_map.1 hb
    left
    show i + shorter - i < j + longer - j
    omega

/-- A shorter run stands before a longer one. -/
theorem mem_front_of_shorter {n : Nat} {front back : List (Nat × Nat)} {run shorter : Nat × Nat}
    (h : fillOrder n = front ++ run :: back) (hs : shorter ∈ fillOrder n)
    (hlt : shorter.2 - shorter.1 < run.2 - run.1) : shorter ∈ front := by
  have sorted := pairwise_fillOrder n
  rw [h] at hs sorted
  rcases List.mem_append.1 hs with hfront | hback
  · exact hfront
  · exfalso
    rcases List.mem_cons.1 hback with rfl | hback
    · omega
    · have later : Precedes run shorter :=
        List.rel_of_pairwise_cons (List.pairwise_append.1 sorted).2.1 hback
      rcases later with longer | ⟨same, _⟩ <;> omega

namespace CostTable

/-- The cells that the cell of a run is computed from, those of both parts of every split. -/
def reads (run : Nat × Nat) : List (Nat × Nat) :=
  (pivots run.1 run.2).flatMap fun pivot => [(run.1, pivot), (pivot + 1, run.2)]

theorem mem_reads_iff {run cell : Nat × Nat} : cell ∈ reads run ↔
    ∃ pivot, run.1 ≤ pivot ∧ pivot < run.2 ∧ (cell = (run.1, pivot) ∨ cell = (pivot + 1, run.2)) := by
  simp only [reads, List.mem_flatMap, mem_pivots, List.mem_cons, List.not_mem_nil, or_false, and_assoc]

/-- A part of a run is a run, and a shorter one. -/
theorem bounds_of_mem_reads {run cell : Nat × Nat} (h : cell ∈ reads run) :
    run.1 ≤ cell.1 ∧ cell.1 ≤ cell.2 ∧ cell.2 ≤ run.2 ∧ cell.2 - cell.1 < run.2 - run.1 := by
  obtain ⟨pivot, hl, hu, rfl | rfl⟩ := mem_reads_iff.1 h
  · show run.1 ≤ run.1 ∧ run.1 ≤ pivot ∧ pivot ≤ run.2 ∧ pivot - run.1 < run.2 - run.1
    omega
  · show run.1 ≤ pivot + 1 ∧ pivot + 1 ≤ run.2 ∧ run.2 ≤ run.2 ∧
      run.2 - (pivot + 1) < run.2 - run.1
    omega

/-- What the cell of a run is computed from stands before it in the order of filling. -/
theorem mem_front_of_mem_reads {n : Nat} {front back : List (Nat × Nat)} {run cell : Nat × Nat}
    (h : fillOrder n = front ++ run :: back) (hm : cell ∈ reads run) : cell ∈ front := by
  have listed : run ∈ fillOrder n := by simp [h]
  obtain ⟨-, inside⟩ := mem_fillOrder.1 listed
  obtain ⟨-, ordered, upper, shorter⟩ := bounds_of_mem_reads hm
  exact mem_front_of_shorter h (mem_fillOrder.2 ⟨ordered, by omega⟩) shorter

/-- The table is one for the ranges and the catalog, and the runs done cost what they cost
least. -/
structure Filled (s : RangeStore) (c : Catalog) (done : List (Nat × Nat)) (t : CostTable) :
    Prop where
  store : t.store = s
  catalog : t.catalog = c
  size : t.size = s.size
  shaped : t.cells.WellShaped
  cell : ∀ first last, (first, last) ∈ done → t.cost first last = leastCost s c first last

theorem filled_blank (s : RangeStore) (c : Catalog) : Filled s c [] (blank s c) where
  store := rfl
  catalog := rfl
  size := Triangle.size_replicate _ _
  shaped := Triangle.wellShaped_replicate _ _
  cell := nofun

section Step

variable {s : RangeStore} {c : Catalog} {done : List (Nat × Nat)} {t : CostTable}

theorem cost_fill {run : Nat × Nat} {first last : Nat} (h : t.cells.WellShaped)
    (hr : run.1 ≤ run.2) (hs : run.2 < t.size) (hij : first ≤ last) :
    (t.fill run).cost first last =
      if run = (first, last) then min (t.minTableCost run.1 run.2) (t.minSplitCost run.1 run.2)
      else t.cost first last := by
  rw [cost, fill, Triangle.getD_set h hr hs hij, cost]
  simp only [Prod.ext_iff]

/-- What the cell of a run becomes, from what the cells hold that are read for it. -/
theorem candidates_eq_of_reads {g : Nat → Nat → Cost} {run : Nat × Nat}
    (h : ∀ cell ∈ reads run, t.cost cell.1 cell.2 = g cell.1 cell.2) :
    min (t.minTableCost run.1 run.2) (t.minSplitCost run.1 run.2) =
      min (Cost.least (t.catalog.formats.map fun f => (FlatTable.mk f run.1 run.2).cost t.store))
        (Cost.least ((pivots run.1 run.2).map fun pivot =>
          Cost.split (g run.1 pivot) (g (pivot + 1) run.2))) := by
  apply congrArg (min _)
  apply congrArg Cost.least
  apply List.map_congr_left
  intro pivot hp
  obtain ⟨hl, hu⟩ := mem_pivots.1 hp
  have left := h (run.1, pivot) (mem_reads_iff.2 ⟨pivot, hl, hu, .inl rfl⟩)
  have right := h (pivot + 1, run.2) (mem_reads_iff.2 ⟨pivot, hl, hu, .inr rfl⟩)
  rw [splitCost, left, right]

/-- Where everything is done that it is computed from, the cell of a run becomes its least cost. -/
theorem Filled.candidates_eq (h : Filled s c done t) {run : Nat × Nat}
    (parts : ∀ cell ∈ reads run, cell ∈ done) :
    min (t.minTableCost run.1 run.2) (t.minSplitCost run.1 run.2) = leastCost s c run.1 run.2 := by
  have values : ∀ cell ∈ reads run, t.cost cell.1 cell.2 = leastCost s c cell.1 cell.2 :=
    fun cell hm => h.cell _ _ (parts cell hm)
  rw [candidates_eq_of_reads values, leastCost_eq, h.catalog, h.store]

theorem Filled.fill (h : Filled s c done t) {run : Nat × Nat} (hr : run.1 ≤ run.2)
    (hs : run.2 < s.size) (ordered : ∀ r ∈ done, r.1 ≤ r.2)
    (parts : ∀ cell ∈ reads run, cell ∈ done) :
    Filled s c (done ++ [run]) (t.fill run) where
  store := h.store
  catalog := h.catalog
  size := (Triangle.size_set _ _ _ _).trans h.size
  shaped := h.shaped.set _ _ _
  cell first last hm := by
    have hij : first ≤ last := by
      rcases List.mem_append.1 hm with hd | hd
      · exact ordered _ hd
      · rw [← List.mem_singleton.1 hd] at hr
        exact hr
    rw [cost_fill h.shaped hr (h.size.symm ▸ hs) hij]
    split
    · next he =>
      subst he
      exact h.candidates_eq parts
    · next hne =>
      rcases List.mem_append.1 hm with hd | hd
      · exact h.cell _ _ hd
      · exact absurd (List.mem_singleton.1 hd).symm hne

end Step

section Sweep

variable {s : RangeStore} {c : Catalog} {t : CostTable}

/-- A sweep that has done the runs in front does the next ones. -/
theorem Filled.foldl {front runs back : List (Nat × Nat)} (h : Filled s c front t)
    (ho : fillOrder s.size = front ++ runs ++ back) :
    Filled s c (front ++ runs) (runs.foldl CostTable.fill t) := by
  induction runs generalizing front t with
  | nil =>
    rw [List.append_nil]
    exact h
  | cons run runs ih =>
    rw [List.append_assoc, List.cons_append] at ho
    have listed : ∀ r ∈ front ++ run :: (runs ++ back), r.1 ≤ r.2 ∧ r.2 < s.size := by
      rw [← ho]
      exact fun r => mem_fillOrder.1
    obtain ⟨hr, hs⟩ := listed run (by simp)
    have ordered : ∀ r ∈ front, r.1 ≤ r.2 := by
      intro r hm
      exact (listed r (by simp [hm])).1
    have step := h.fill hr hs ordered fun cell => mem_front_of_mem_reads ho
    have rest := ih step (by simp [ho])
    rw [List.append_assoc, List.singleton_append] at rest
    exact rest

theorem exists_optimize (c : Catalog) (h : 0 < s.size) : ∃ t, optimize s c = .ok t := by
  rw [optimize, if_neg (by omega)]
  exact ⟨_, rfl⟩

theorem filled_optimize (h : optimize s c = .ok t) : Filled s c (fillOrder s.size) t := by
  unfold optimize at h
  split at h
  · cases h
  · cases h
    have all : fillOrder s.size = [] ++ fillOrder s.size ++ [] := by simp
    exact (filled_blank s c).foldl all

/-- Every cell of a filled table is the least cost of its run. -/
theorem cost_eq_leastCost (h : optimize s c = .ok t) {first last : Nat} (hf : first ≤ last)
    (hl : last < s.size) : t.cost first last = leastCost s c first last :=
  (filled_optimize h).cell _ _ (mem_fillOrder.2 ⟨hf, hl⟩)

/-- Every cell of a filled table is the least of its candidates. -/
theorem cost_eq_min (h : optimize s c = .ok t) {first last : Nat} (hf : first ≤ last)
    (hl : last < s.size) :
    t.cost first last = min (t.minTableCost first last) (t.minSplitCost first last) := by
  have parts : ∀ cell ∈ reads (first, last), cell ∈ fillOrder s.size := by
    intro cell hm
    obtain ⟨-, ordered, upper, -⟩ := bounds_of_mem_reads hm
    exact mem_fillOrder.2 ⟨ordered, Nat.lt_of_le_of_lt upper hl⟩
  rw [cost_eq_leastCost h hf hl]
  exact ((filled_optimize h).candidates_eq parts).symm

theorem total_eq (h : optimize s c = .ok t) : t.total = t.cost 0 (s.size - 1) := by
  rw [total, (filled_optimize h).size]

end Sweep

end CostTable

end RangeLookup
