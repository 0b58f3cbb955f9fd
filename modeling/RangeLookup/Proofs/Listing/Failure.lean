import RangeLookup.Proofs.CostTable.Feasible
import RangeLookup.Proofs.Document.Ceiling
import RangeLookup.Proofs.Listing.Recovery

/-!
# Why an assembly listing fails

The search for a tree takes a table only where it exists, and a table exists exactly when its
entries fit its format, which is all that the layout of the format asks for. So the tables of a tree
that was found are written or not by their formats alone: the writing stops at the first leaf whose
format has no byte layout (`assembly_eq_error_iff`). No value is ever found too great for its field;
whatever else an assembly listing fails for is what the symbolic listing fails for.
-/

namespace RangeLookup

/-- The reasons for which a document is refused. -/
def Error.Refuses : Error → Prop
  | malformedInput .. | invertedRange .. | unsortedInput .. | interval .. | capacityExceeded ..
  | notText => True
  | _ => False

namespace Document

variable {α β : Type} {x : Except Error α} {f : α → Except Error β}

/-- An error, if there is one, is a reason to refuse a document. -/
def OnlyRefuses (x : Except Error α) : Prop := ∀ e, x = .error e → e.Refuses

theorem onlyRefuses_ok (a : α) : OnlyRefuses (.ok a) := nofun

theorem onlyRefuses_error {e : Error} (h : e.Refuses) : OnlyRefuses (.error e : Except Error α) := by
  rintro _ ⟨⟩
  exact h

theorem OnlyRefuses.bind (hx : OnlyRefuses x) (hf : ∀ a, OnlyRefuses (f a)) : OnlyRefuses (x >>= f) := by
  cases x with
  | error e => exact onlyRefuses_error (hx e rfl)
  | ok a => exact hf a

namespace Intake

theorem onlyRefuses_store (ceiling : Nat) (s : RangeStore) (r : Interval) :
    OnlyRefuses (store ceiling s r) := by
  unfold store
  split
  · exact onlyRefuses_error trivial
  · cases s.push r with
    | error reason => exact onlyRefuses_error trivial
    | ok t => exact onlyRefuses_ok t

theorem onlyRefuses_add (ceiling line : Nat) (i : Intake) (r : Interval) :
    OnlyRefuses (i.add ceiling line r) := by
  unfold add
  split
  · exact onlyRefuses_ok _
  · split
    · exact onlyRefuses_error trivial
    · split
      · exact onlyRefuses_ok _
      · exact (onlyRefuses_store _ _ _).bind fun s => onlyRefuses_ok _

theorem onlyRefuses_finish (ceiling : Nat) (i : Intake) : OnlyRefuses (i.finish ceiling) := by
  unfold finish
  split
  · exact onlyRefuses_ok _
  · exact onlyRefuses_store _ _ _

end Intake

theorem onlyRefuses_readLine (number : Nat) (line : Bytes) : OnlyRefuses (readLine number line) := by
  unfold readLine
  split
  · exact onlyRefuses_error trivial
  · split
    · exact onlyRefuses_error trivial
    · split
      · exact onlyRefuses_error trivial
      · exact onlyRefuses_ok _

theorem onlyRefuses_readLines (ceiling number : Nat) (all : List Bytes) (i : Intake) :
    OnlyRefuses (readLines ceiling number all i) := by
  induction all generalizing number i with
  | nil => exact onlyRefuses_ok i
  | cons line rest ih =>
    exact (onlyRefuses_readLine number line).bind fun r =>
      (Intake.onlyRefuses_add ceiling number i r).bind fun j => ih (number + 1) j

theorem onlyRefuses_read (document : Bytes) (ceiling : Nat) : OnlyRefuses (read document ceiling) :=
  (onlyRefuses_readLines ceiling 1 (lines document) .empty).bind fun i => i.onlyRefuses_finish ceiling

end Document

namespace CostTable

variable {s : RangeStore} {c : Catalog} {t : CostTable} {tree : Decision}

/-- The tables of a tree that is found exist, are not empty, and are in formats of the catalog. -/
theorem leaves_of_tree (ht : optimize s c = .ok t) (hn : 0 < s.size) (htree : t.tree = .ok tree) :
    ∀ table ∈ tree.leaves, table.first ≤ table.last ∧ table.last < s.size ∧
      (table.cost s).isFinite = true ∧ table.format ∈ c.formats := by
  have finite := Cost.isFinite_iff.1 (isFinite_of_tree htree)
  have chosen := chooses_of_tree ht htree
  have encoding := chosen.encoding ht (Nat.zero_le _)
  have tiles := encoding.covers.tiles_all hn
  rw [← chosen.cost_eq_total ht] at finite
  intro table hm
  obtain ⟨-, hle, hlt⟩ := tiles.bounds hm
  exact ⟨hle, hlt, Cost.isFinite_iff.2 (Decision.leaves_finite finite table hm),
    encoding.formats table hm⟩

end CostTable

namespace Listing

/-- Drafts one after the other stop where the first of them does. -/
theorem Draft.finish_concat_eq_error_iff {α : Type} {items : List α} {f : α → Draft} {e : Error} :
    (Draft.concat (items.map f)).finish = .error e ↔
      ∃ front a back, items = front ++ a :: back ∧ (∀ b ∈ front, ∃ ls, (f b).finish = .ok ls) ∧
        (f a).finish = .error e := by
  induction items with
  | nil =>
    simp [Draft.concat, Draft.done, Draft.finish]
  | cons a rest ih =>
    rw [Draft.finish_concat_cons]
    simp only [List.cons_eq_append_iff]
    cases ha : (f a).finish with
    | error reason =>
      -- the first draft stops, so that no other is looked at
      simp only [Except.bind, Except.error.injEq]
      constructor
      · rintro rfl
        exact ⟨[], a, rest, .inl ⟨rfl, rfl⟩, List.forall_mem_nil _, ha⟩
      · rintro ⟨front, b, back, ⟨rfl, h⟩ | ⟨front, rfl, -⟩, written, stopped⟩
        · obtain ⟨rfl, -⟩ := List.cons.inj h
          rw [ha] at stopped
          exact Except.error.inj stopped
        · obtain ⟨ls, hls⟩ := written a List.mem_cons_self
          rw [ha] at hls
          cases hls
    | ok ls =>
      have tail : ((Draft.concat (rest.map f)).finish.map (ls ++ ·)) = .error e ↔
          (Draft.concat (rest.map f)).finish = .error e := by
        cases (Draft.concat (rest.map f)).finish <;> simp [Except.map]
      simp only [Except.bind, tail, ih]
      constructor
      · rintro ⟨front, b, back, rfl, written, stopped⟩
        refine ⟨a :: front, b, back, .inr ⟨front, rfl, rfl⟩, ?_, stopped⟩
        exact List.forall_mem_cons.2 ⟨⟨ls, ha⟩, written⟩
      · rintro ⟨front, b, back, ⟨rfl, h⟩ | ⟨front, rfl, rfl⟩, written, stopped⟩
        · obtain ⟨rfl, -⟩ := List.cons.inj h
          rw [ha] at stopped
          cases stopped
        · exact ⟨front, b, back, rfl, (List.forall_mem_cons.1 written).2, stopped⟩

section Tables

variable {name : String} {s : RangeStore} {t : FlatTable} {tree : Decision} {e : Error}

/-- A table that exists is written or not by its format alone. -/
theorem finish_table (hle : t.first ≤ t.last) (hl : t.last < s.size)
    (hf : (t.cost s).isFinite = true) :
    (Assembly.table s t).finish =
      if t.format.Packable then .ok (Assembly.tableLines s t)
      else .error (.unsupportedPacking t.format) := by
  split
  · next packable =>
    have writable := FlatTable.writable_of_isFinite hle hl hf packable
    exact (Assembly.ends_table s t _).2 ⟨writable, rfl⟩
  · next unpackable =>
    have none : Layout.ofFormat? t.format = none := by
      cases hl : Layout.ofFormat? t.format with
      | none => rfl
      | some l =>
        exact absurd (Layout.packable_iff.2 ⟨l, Layout.ofFormat?_eq_some_iff.1 hl⟩) unpackable
    simp [Assembly.table, Layout.ofFormat, none, Draft.finish]

theorem assembly_eq_error_iff_finish :
    assembly name s tree = .error e ↔
      (Draft.concat (tree.leaves.map (Assembly.table s))).finish = .error e := by
  rw [assembly, Assembly.lines, Assembly.data, Draft.finish_append, Draft.finish_append]
  cases (Draft.concat (tree.leaves.map (Assembly.table s))).finish <;>
    simp [Draft.done, Draft.finish, bind, Except.bind, Except.map, pure, Except.pure]

/-- Where the tables of a tree exist, its listing fails for the first of them whose format has no
byte layout, and for nothing else. -/
theorem assembly_eq_error_iff (h : ∀ t ∈ tree.leaves, t.first ≤ t.last ∧ t.last < s.size ∧
      (t.cost s).isFinite = true) :
    assembly name s tree = .error e ↔
      ∃ front t back, tree.leaves = front ++ t :: back ∧ (∀ u ∈ front, u.format.Packable) ∧
        ¬ t.format.Packable ∧ e = .unsupportedPacking t.format := by
  have finish : ∀ t ∈ tree.leaves, (Assembly.table s t).finish =
      if t.format.Packable then .ok (Assembly.tableLines s t)
      else .error (.unsupportedPacking t.format) := fun t ht =>
    finish_table (h t ht).1 (h t ht).2.1 (h t ht).2.2
  rw [assembly_eq_error_iff_finish, Draft.finish_concat_eq_error_iff]
  constructor
  · rintro ⟨front, t, back, hleaves, written, stopped⟩
    rw [finish t (by simp [hleaves])] at stopped
    refine ⟨front, t, back, hleaves, ?_, ?_⟩
    · intro u hu
      obtain ⟨ls, hls⟩ := written u hu
      rw [finish u (by simp [hleaves, hu])] at hls
      by_contra unpackable
      simp [unpackable] at hls
    · split at stopped
      · cases stopped
      · next unpackable => exact ⟨unpackable, (Except.error.inj stopped).symm⟩
  · rintro ⟨front, t, back, hleaves, packable, unpackable, rfl⟩
    refine ⟨front, t, back, hleaves, ?_, ?_⟩
    · intro u hu
      exact ⟨_, by rw [finish u (by simp [hleaves, hu]), if_pos (packable u hu)]⟩
    · rw [finish t (by simp [hleaves]), if_neg unpackable]

end Tables

end Listing

/-- The errors that come before any listing. -/
def Error.Precedes (e : Error) : Prop :=
  e.Refuses ∨ e = .emptyInput ∨ ∃ index range, e = .infeasible index range

/-- Compilation fails before the kind of listing matters, or it renders a tree that was found. -/
theorem compile_cases (document : Bytes) (c : Catalog) (ceiling : Nat) :
    (∃ e : Error, e.Precedes ∧ ∀ kind, compile document c ceiling kind = .error e) ∨
    ∃ s tree, (∀ kind, (Compilation.run document c ceiling kind).tree = .ok tree) ∧
      (∀ t ∈ tree.leaves, t.first ≤ t.last ∧ t.last < s.size ∧ (t.cost s).isFinite = true ∧
        t.format ∈ c.formats) ∧
      ∀ kind : ListingKind, compile document c ceiling kind = kind.render s tree := by
  simp only [compile_eq]
  cases hread : Document.read document ceiling with
  | error e =>
    exact .inl ⟨e, .inl (Document.onlyRefuses_read document ceiling e hread), fun _ => rfl⟩
  | ok s =>
    by_cases hn : s.size = 0
    · refine .inl ⟨.emptyInput, .inr (.inl rfl), fun _ => ?_⟩
      simp [Except.bind, CostTable.optimize, hn]
    · have pos := Nat.pos_of_ne_zero hn
      obtain ⟨t, ht⟩ := CostTable.exists_optimize c pos
      cases htree : t.tree with
      | error e =>
        obtain ⟨-, rfl⟩ := (CostTable.tree_eq_error_iff ht pos).1 htree
        refine .inl ⟨t.infeasible, .inr (.inr ⟨_, _, rfl⟩), fun _ => ?_⟩
        simp [Except.bind, ht, htree]
      | ok tree =>
        refine .inr ⟨s, tree, fun _ => ?_, CostTable.leaves_of_tree ht pos htree, fun _ => ?_⟩
        · simp [Compilation.run, hread, Except.bind, ht, htree]
        · simp [Except.bind, ht, htree]

/-- A table costs less than infinity exactly when its entries fit its format, so an assembly listing
never comes upon a value that does not fit its field. It fails as the symbolic listing does where
that fails; where that does not, it fails for the first leaf of the tree whose format has no byte
layout and for nothing else, and not at all in a catalog of formats that have one. -/
theorem assembly_fails_for_layout_only :
    (∀ (s : RangeStore) (f : Format) (first last : Nat), first ≤ last → last < s.size →
      (((FlatTable.mk f first last).cost s).isFinite = true ↔
        ∀ e ∈ (FlatTable.mk f first last).entries s, e.Fits f)) ∧
    ∀ (document : Bytes) (c : Catalog) (ceiling : Nat) (name : String),
      (∀ field value width, compile document c ceiling (.assembly name) ≠
        .error (.valueOutOfRange field value width)) ∧
      (∀ e, compile document c ceiling .symbolic = .error e →
        compile document c ceiling (.assembly name) = .error e) ∧
      (∀ text, compile document c ceiling .symbolic = .ok text →
        ∃ tree, (Compilation.run document c ceiling (.assembly name)).tree = .ok tree ∧
          ∀ e, compile document c ceiling (.assembly name) = .error e ↔
            ∃ front t back, tree.leaves = front ++ t :: back ∧
              (∀ u ∈ front, u.format.Packable) ∧ ¬ t.format.Packable ∧
              e = .unsupportedPacking t.format) ∧
      ((∀ f ∈ c.formats, f.Packable) →
        ((∃ text, compile document c ceiling (.assembly name) = .ok text) ↔
          ∃ text, compile document c ceiling .symbolic = .ok text)) := by
  constructor
  · intro s f first last hle hl
    rw [Cost.isFinite_iff, FlatTable.cost_ne_infinite_iff, FlatTable.feasible_iff_fits hle hl]
  intro document c ceiling name
  rcases compile_cases document c ceiling with ⟨e, early, fails⟩ | ⟨s, tree, found, exist, renders⟩
  · simp only [fails, Except.error.injEq, reduceCtorEq, exists_false, implies_true, and_true,
      imp_self, false_implies]
    intro field value width stopped
    obtain rfl := Except.error.inj stopped
    rcases early with refuses | impossible | ⟨_, _, impossible⟩
    · exact refuses
    · cases impossible
    · cases impossible
  · have writes : ∀ e, compile document c ceiling (.assembly name) = .error e ↔
        ∃ front t back, tree.leaves = front ++ t :: back ∧ (∀ u ∈ front, u.format.Packable) ∧
          ¬ t.format.Packable ∧ e = .unsupportedPacking t.format := by
      intro e
      rw [renders]
      exact Listing.assembly_eq_error_iff fun t ht =>
        ⟨(exist t ht).1, (exist t ht).2.1, (exist t ht).2.2.1⟩
    have symbolic : compile document c ceiling .symbolic = .ok (Listing.symbolic s tree) :=
      renders _
    refine ⟨?_, ?_, fun _ _ => ⟨tree, found _, writes⟩, ?_⟩
    · intro field value width stopped
      obtain ⟨front, t, back, -, -, -, impossible⟩ := (writes _).1 stopped
      cases impossible
    · intro e stopped
      rw [symbolic] at stopped
      cases stopped
    · intro packable
      refine ⟨fun _ => ⟨_, symbolic⟩, fun _ => ?_⟩
      cases hc : compile document c ceiling (.assembly name) with
      | ok text => exact ⟨text, rfl⟩
      | error e =>
        obtain ⟨front, t, back, hleaves, -, unpackable, -⟩ := (writes e).1 hc
        have listed := (exist t (by simp [hleaves])).2.2.2
        exact absurd (packable t.format listed) unpackable

/-- Nine bits for each field. -/
def nineBits : Format := ⟨⟨9, by decide, by decide⟩, ⟨9, by decide, by decide⟩⟩

/-- The catalog of tables with nine bits a field, which have no byte layout. -/
def ninesOnly : Catalog := ⟨[nineBits], by decide, by decide⟩

theorem assembly_fails_for_layout_only_ninesOnly :
    ((∃ text, compile Document.overlapping ninesOnly 2 .symbolic = .ok text) ∧
      compile Document.overlapping ninesOnly 2 (.assembly "t") =
        .error (.unsupportedPacking nineBits)) ∧
    (compile Document.overlapping .standard 1 .symbolic = .error (.capacityExceeded 1) ∧
      compile Document.overlapping .standard 1 (.assembly "t") = .error (.capacityExceeded 1)) ∧
    (∃ text, compile Document.overlapping .standard 2 (.assembly "t") = .ok text) ∧
    ((FlatTable.mk nineBits 0 1).cost Document.overlappingRanges).isFinite = true ∧
      ∀ e ∈ (FlatTable.mk nineBits 0 1).entries Document.overlappingRanges, e.Fits nineBits := by
  obtain ⟨tables, compiles⟩ := assembly_fails_for_layout_only
  have symbolic : ∀ c : Catalog, (∀ k < 2, c.HoldsSpan (Document.overlappingRanges.get k)) →
      ∃ text, compile Document.overlapping c 2 .symbolic = .ok text := fun c spans =>
    (CostTable.compile_symbolic_eq_ok_iff c _ _).2 ⟨_, Document.read_overlapping, by decide, spans⟩
  refine ⟨⟨symbolic _ (by decide), ?_⟩, ?_, ?_, ?_⟩
  · obtain ⟨text, written⟩ := symbolic ninesOnly (by decide)
    obtain ⟨tree, found, stops⟩ := (compiles Document.overlapping ninesOnly 2 "t").2.2.1 text written
    obtain ⟨e, -, fails⟩ | ⟨s, same, found', exist, -⟩ :=
      compile_cases Document.overlapping ninesOnly 2
    · rw [fails] at written
      cases written
    · rw [found'] at found
      obtain rfl := Except.ok.inj found
      cases hleaves : same.leaves with
      | nil => exact absurd (congrArg List.length hleaves) (Nat.ne_of_gt same.length_leaves_pos)
      | cons t back =>
        have listed := (exist t (by simp [hleaves])).2.2.2
        have format : t.format = nineBits := List.mem_singleton.1 listed
        exact (stops _).2 ⟨[], t, back, hleaves, List.forall_mem_nil _, by rw [format]; decide, by rw [format]⟩
  · have early : compile Document.overlapping .standard 1 .symbolic =
        .error (.capacityExceeded 1) := by
      rw [compile_eq, Document.read_of_read_eq_ok Document.read_overlapping]
      rfl
    exact ⟨early, (compiles Document.overlapping .standard 1 "t").2.1 _ early⟩
  · exact ((compiles Document.overlapping .standard 2 "t").2.2.2 (by decide)).2
      (symbolic _ (by decide))
  · have fits : ∀ e ∈ (FlatTable.mk nineBits 0 1).entries Document.overlappingRanges,
        e.Fits nineBits := by decide
    exact ⟨(tables _ nineBits 0 1 (by decide) (by decide)).2 fits, fits⟩

end RangeLookup
