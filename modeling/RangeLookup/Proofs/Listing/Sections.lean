import RangeLookup.Listing.Assembly
import RangeLookup.Proofs.Packing.RoundTrip

/-!
# What stands in the two sections

A draft ends under a condition and then has fixed lines (`Draft.Ends`), and drafts one after the
other end when each of them does. So the data section comes to its end exactly when every table can
be written, that is when its format has a byte layout and every entry fits it
(`FlatTable.Writable`); nothing else stops a listing (`lines_eq_ok_iff`).
-/

namespace RangeLookup

/-- The table has a byte layout that all its entries fit. -/
def FlatTable.Writable (t : FlatTable) (s : RangeStore) : Prop :=
  ∃ l : Layout, l.format = t.format ∧ ∀ e ∈ t.entries s, e.Fits l.format

namespace Listing

namespace Draft

variable {d e : Draft} {p q : Prop} {as bs : List Line}

/-- The draft ends exactly under the condition, and then has the lines. -/
def Ends (d : Draft) (p : Prop) (ls : List Line) : Prop :=
  ∀ written, d.finish = .ok written ↔ p ∧ ls = written

theorem Ends.not_of_error {reason : Error} (h : d.Ends p as) (hd : d.finish = .error reason) :
    ¬ p := by
  intro hp
  rw [(h as).2 ⟨hp, rfl⟩] at hd
  cases hd

theorem ends_done (ls : List Line) : (done ls).Ends True ls := by
  intro written
  simp [done, finish]

theorem finish_append (d e : Draft) :
    (d ++ e).finish = d.finish.bind fun ls => e.finish.map (ls ++ ·) := by
  show (append d e).finish = _
  unfold append finish
  cases hd : d.stopped with
  | none => cases e.stopped <;> rfl
  | some reason => simp [hd, Except.bind]

theorem finish_concat_cons {α : Type} (a : α) (rest : List α) (f : α → Draft) :
    (concat ((a :: rest).map f)).finish =
      (f a).finish.bind fun ls => (concat (rest.map f)).finish.map (ls ++ ·) :=
  finish_append _ _

/-- Drafts one after the other end with the lines of all, or as the first that stops. -/
theorem finish_concat {α : Type} (items : List α) (f : α → Draft) :
    (concat (items.map f)).finish = (items.mapM fun a => (f a).finish).map List.flatten := by
  induction items with
  | nil => rfl
  | cons a rest ih =>
    rw [finish_concat_cons, ih, List.mapM_cons]
    cases (f a).finish with
    | error e => rfl
    | ok ls => cases rest.mapM fun a => (f a).finish <;> rfl

theorem Ends.append (hd : d.Ends p as) (he : e.Ends q bs) : (d ++ e).Ends (p ∧ q) (as ++ bs) := by
  intro written
  rw [finish_append]
  cases hw : d.finish with
  | error reason =>
    simp [Except.bind, hd.not_of_error hw]
  | ok front =>
    obtain ⟨hp, rfl⟩ := (hd front).1 hw
    cases hw : e.finish with
    | error reason =>
      simp [Except.bind, Except.map, he.not_of_error hw]
    | ok back =>
      obtain ⟨hq, rfl⟩ := (he back).1 hw
      simp [Except.bind, Except.map, hp, hq]

theorem Ends.concat {α : Type} {items : List α} {f : α → Draft} {p : α → Prop} {g : α → List Line}
    (h : ∀ a ∈ items, (f a).Ends (p a) (g a)) :
    (Draft.concat (items.map f)).Ends (∀ a ∈ items, p a) (items.flatMap g) := by
  induction items with
  | nil =>
    show (done []).Ends _ _
    simpa using ends_done []
  | cons a rest ih =>
    rw [List.forall_mem_cons] at h
    rw [List.flatMap_cons]
    simp only [List.forall_mem_cons]
    exact h.1.append (ih h.2)

end Draft

namespace Assembly

variable {s : RangeStore} {t : FlatTable} {tree : Decision} {name : String} {ls : List Line}

/-- The directives of a table, none where its format has no layout. -/
def directives (s : RangeStore) (t : FlatTable) : List Directive :=
  match Layout.ofFormat? t.format with
  | some l => (t.entries s).map l.directiveOf
  | none => []

/-- The lines of a table that can be written. -/
def tableLines (s : RangeStore) (t : FlatTable) : List Line :=
  .align :: .tableLabel t.first t.last :: (directives s t).map .data

/-- The lines of the data section for tables that can be written. -/
def dataLines (name : String) (s : RangeStore) (tables : List FlatTable) : List Line :=
  .opening name .data :: .sectionLabel name .data ::
    (tables.flatMap (tableLines s) ++ [.closing name .data])

/-- The lines of a listing whose tables can all be written. -/
def allLines (name : String) (s : RangeStore) (tree : Decision) : List Line :=
  dataLines name s tree.leaves ++ code name s tree

theorem directives_eq {l : Layout} (h : l.format = t.format) :
    directives s t = (t.entries s).map l.directiveOf := by
  rw [directives, Layout.ofFormat?_eq_some_iff.2 h]

theorem ends_entry (l : Layout) (e : Entry) :
    (entry l e).Ends (e.Fits l.format) [.data (l.directiveOf e)] := by
  intro written
  unfold entry
  cases hd : l.directive e with
  | error reason =>
    have refused : ¬ e.Fits l.format := fun fits => by
      simpa [hd] using (Layout.directive_eq_ok_iff (d := l.directiveOf e)).2 ⟨fits, rfl⟩
    simp [Draft.finish, refused]
  | ok directive =>
    obtain ⟨fits, rfl⟩ := Layout.directive_eq_ok_iff.1 hd
    simp [Draft.done, Draft.finish, fits]

theorem ends_table (s : RangeStore) (t : FlatTable) :
    (table s t).Ends (t.Writable s) (tableLines s t) := by
  unfold table
  cases hl : Layout.ofFormat t.format with
  | error reason =>
    have unwritable : ¬ t.Writable s := by
      rintro ⟨l, hf, -⟩
      rw [Layout.ofFormat_eq_ok_iff.2 hf] at hl
      cases hl
    intro written
    simp [Draft.finish, unwritable]
  | ok l =>
    have hf := Layout.ofFormat_eq_ok_iff.1 hl
    have writable : t.Writable s ↔ ∀ e ∈ t.entries s, e.Fits l.format := by
      constructor
      · rintro ⟨m, hm, fits⟩
        rwa [hf, ← hm]
      · exact fun fits => ⟨l, hf, fits⟩
    have body := Draft.Ends.concat fun e (_ : e ∈ t.entries s) => ends_entry l e
    have both := (Draft.ends_done [.align, .tableLabel t.first t.last]).append body
    rw [true_and, ← writable] at both
    rw [tableLines, directives_eq hf, List.map_map, List.map_eq_flatMap]
    exact both

theorem ends_data (name : String) (s : RangeStore) (tree : Decision) :
    (data name s tree).Ends (∀ t ∈ tree.leaves, t.Writable s) (dataLines name s tree.leaves) := by
  have tables := Draft.Ends.concat fun t (_ : t ∈ tree.leaves) => ends_table s t
  have all := (Draft.ends_done [.opening name .data, .sectionLabel name .data]).append
    (tables.append (Draft.ends_done [.closing name .data]))
  rw [true_and, and_true] at all
  exact all

/-- A listing is written exactly when every table of the tree is. -/
theorem lines_eq_ok_iff : lines name s tree = .ok ls ↔
    (∀ t ∈ tree.leaves, t.Writable s) ∧ allLines name s tree = ls := by
  have written := ends_data name s tree
  unfold lines
  cases hw : (data name s tree).finish with
  | error reason =>
    simp only [bind, Except.bind, reduceCtorEq, false_iff, not_and]
    exact fun all => absurd all (written.not_of_error hw)
  | ok front =>
    obtain ⟨all, rfl⟩ := (written front).1 hw
    simp only [bind, Except.bind, pure, Except.pure, Except.ok.injEq]
    exact (and_iff_right all).symm

end Assembly

end Listing

end RangeLookup
