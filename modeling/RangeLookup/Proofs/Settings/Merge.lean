import Mathlib
import RangeLookup.Settings.Layered
import RangeLookup.Settings.Resolution

/-!
# Merging goes name by name

A value that is set at a key changes what stands at the first name of the key and nothing else
(`child?_assign`), so what stands at a name in the end is made, in order, by the entries that touch it
(`child?_addLayer`). The layers are merged into a table whose keys are single names, each there once
(`Flat`), so that the table goes on top of what is built in name by name as well (`child?_merge`).
Where the last entry at a name sets it as a whole, its value is all that is left
(`child?_merge_of_setAsWhole`).
-/

namespace RangeLookup

namespace Settings

/-- The entries of a layer that change what stands at a name, as a whole or in part. -/
def touching (name : String) (layer : Layer Setting) : Layer Setting :=
  layer.filter fun e => (Setting.pathOf e.1).head? = some (.child name)

/-- The last entry that changes what stands at a name gives it a value that takes the place of what
was there. A table would merge into it, and a key that goes on behind the name changes it in part. -/
def SetAsWhole (name : String) (layer : Layer Setting) : Prop :=
  ∀ e ∈ (touching name layer).getLast?, e.1 = name ∧ ∀ source entries, e.2 ≠ .table source entries

end Settings

namespace Setting

variable {t root value : Setting} {key name : String} {steps : List Step}
  {layer : List (String × Setting)}

theorem child?_eq_none_iff {source : Source} {entries : List (String × Setting)} :
    (table source entries).child? name = none ↔ ∀ e ∈ entries, e.1 ≠ name := by
  simp [child?, Setting.entries]

theorem child?_nil (source : Source) (name : String) : (table source []).child? name = none := rfl

theorem child?_append (source : Source) (front back : List (String × Setting)) (name : String) :
    (table source (front ++ back)).child? name =
      ((table source front).child? name).or ((table source back).child? name) := by
  simp only [child?, Setting.entries, List.find?_append, Option.map_or]

theorem child?_cons (source : Source) (e : String × Setting) (rest : List (String × Setting)) :
    (table source (e :: rest)).child? name =
      if e.1 = name then some e.2 else (table source rest).child? name := by
  by_cases here : e.1 = name <;> simp [child?, Setting.entries, here]

/-- A new value at a key that is there; other keys keep their values. -/
theorem child?_replace (source : Source) (entries : List (String × Setting)) :
    (table source (entries.map fun e => if e.1 = key then (key, value) else e)).child? name =
      if name = key then (table source entries).child? key |>.map fun _ => value
      else (table source entries).child? name := by
  induction entries with
  | nil => simp [child?, Setting.entries]
  | cons e rest ih =>
    rw [List.map_cons, child?_cons, child?_cons, child?_cons, ih]
    by_cases here : e.1 = key
    · by_cases same : name = key
      · simp [here, same]
      · simp [here, same, Ne.symm same]
    · by_cases same : name = key
      · simp [here, same]
      · simp [here, same]

theorem child?_put (t : Setting) (key name : String) (value : Setting) :
    (t.put key value).child? name = if name = key then some value else t.child? name := by
  cases t with
  | table source entries =>
    unfold put
    dsimp only
    split
    · next there =>
      obtain ⟨old, found⟩ : ∃ old, (table source entries).child? key = some old := by
        rw [← Option.ne_none_iff_exists', Ne, child?_eq_none_iff]
        simpa using there
      rw [child?_replace, found]
      rfl
    · next absent =>
      have absent : (table source entries).child? key = none :=
        child?_eq_none_iff.2 fun e he at_key =>
          absent (List.any_eq_true.2 ⟨e, he, decide_eq_true at_key⟩)
      rw [child?_append, child?_cons]
      by_cases same : name = key
      · simp [same, absent]
      · simp [same, Ne.symm same, child?_nil]
  | _ => simp [put, child?, Setting.entries, List.find?_singleton, eq_comm]

/-- A text of characters of names is a name as a whole. -/
theorem name?_of_all {cs : List Char} (some_char : cs ≠ []) (all : ∀ c ∈ cs, isNameChar c) :
    name? cs = some (String.ofList cs, []) := by
  have front : cs.takeWhile isNameChar = cs := List.takeWhile_eq_self_iff.2 all
  have behind : cs.dropWhile isNameChar = [] := List.dropWhile_eq_nil_iff.2 all
  rw [name?, front, behind, if_neg (by simpa using some_char)]

/-- A key is a path that begins with a name, which is a key of that name alone. -/
theorem exists_pathOf_eq (key : String) :
    ∃ name steps, pathOf key = .child name :: steps ∧ pathOf name = [.child name] := by
  cases parsed : name? key.toList with
  | none =>
    have whole : pathOf key = [.child key] := by simp [pathOf, parsed]
    exact ⟨key, [], whole, whole⟩
  | some front =>
    obtain ⟨name, rest⟩ := front
    cases behind : steps? rest.length rest with
    | none =>
      have whole : pathOf key = [.child key] := by simp [pathOf, parsed, behind]
      exact ⟨key, [], whole, whole⟩
    | some steps =>
      refine ⟨name, steps, by simp [pathOf, parsed, behind], ?_⟩
      unfold name? at parsed
      dsimp only at parsed
      split at parsed
      · cases parsed
      · next some_char =>
        cases parsed
        have name_eq := name?_of_all (by simpa using some_char) fun c hc => List.mem_takeWhile_imp hc
        rw [pathOf, String.toList_ofList, name_eq]
        rfl

theorem child?_assign (path : pathOf key = .child name :: steps) (root value : Setting)
    (other : String) : (root.assign key value).child? other =
      if other = name then some (place value steps (root.child? name)) else root.child? other := by
  rw [assign, path, place, Option.getD_some, child?_put]

/-- What stands at a name when the values of the entries that touch it are set in order. -/
def stacked (old : Option Setting) (layer : List (String × Setting)) : Option Setting :=
  layer.foldl (fun old e => some (place e.2 (pathOf e.1).tail old)) old

open Settings in
theorem touching_cons {e : String × Setting} {first : String}
    (path : pathOf e.1 = .child first :: steps) (rest : Layer Setting) (name : String) :
    touching name (e :: rest) =
      if first = name then e :: touching name rest else touching name rest := by
  rw [touching, List.filter_cons, path]
  by_cases here : first = name <;> simp [here, touching]

open Settings in
/-- What stands at a name depends on the entries that touch it and on nothing else. -/
theorem child?_addLayer (root : Setting) (layer : Layer Setting) (name : String) :
    (root.addLayer layer).child? name = stacked (root.child? name) (touching name layer) := by
  induction layer generalizing root with
  | nil => rfl
  | cons e rest ih =>
    obtain ⟨first, steps, path, -⟩ := exists_pathOf_eq e.1
    have step := ih (root.assign e.1 e.2)
    rw [child?_assign path] at step
    rw [addLayer, List.foldl_cons]
    refine step.trans ?_
    rw [touching_cons path]
    by_cases here : first = name
    · subst here
      rw [if_pos rfl, if_pos rfl, stacked, stacked, List.foldl_cons, path]
      rfl
    · rw [if_neg here, if_neg (Ne.symm here)]

/-- A table whose keys are single names, each there once. -/
structure Flat (t : Setting) : Prop where
  single : ∀ e ∈ t.entries, pathOf e.1 = [.child e.1]
  nodup : (t.entries.map (·.1)).Nodup

theorem flat_emptyTable : Flat emptyTable := ⟨by simp [emptyTable, Setting.entries], List.nodup_nil⟩

theorem Flat.put (h : Flat t) (path : pathOf key = [.child key]) (value : Setting) :
    Flat (t.put key value) := by
  have alone : ∀ source, Flat (table source [(key, value)]) := fun source =>
    ⟨by simpa [Setting.entries] using path, by simp [Setting.entries]⟩
  cases t with
  | table source entries =>
    obtain ⟨single, nodup⟩ := h
    unfold Setting.put
    dsimp only
    split
    · have keys : (entries.map fun e => if e.1 = key then (key, value) else e).map (·.1) =
          entries.map (·.1) := by
        rw [List.map_map]
        refine List.map_congr_left fun e _ => ?_
        by_cases here : e.1 = key <;> simp [here]
      refine ⟨fun e he => ?_, by rwa [Setting.entries, keys]⟩
      obtain ⟨old, member, rfl⟩ := List.mem_map.1 he
      by_cases here : old.1 = key
      · simpa [here] using path
      · simpa [here] using single old member
    · next absent =>
      have absent : ∀ e ∈ entries, e.1 ≠ key := fun e he at_key =>
        absent (List.any_eq_true.2 ⟨e, he, decide_eq_true at_key⟩)
      refine ⟨fun e he => ?_, ?_⟩
      · rcases List.mem_append.1 he with old | new
        · exact single e old
        · rw [List.mem_singleton.1 new]
          exact path
      · simp only [Setting.entries, List.map_append, List.map_singleton]
        refine nodup.append (List.nodup_singleton key) ?_
        rw [List.disjoint_singleton]
        intro there
        obtain ⟨e, he, at_key⟩ := List.mem_map.1 there
        exact absent e he at_key
  | _ => exact alone .builtIn

theorem Flat.addLayer (h : Flat t) (layer : List (String × Setting)) : Flat (t.addLayer layer) := by
  induction layer generalizing t with
  | nil => exact h
  | cons e rest ih =>
    obtain ⟨first, steps, path, single⟩ := exists_pathOf_eq e.1
    have first_set : Flat (t.assign e.1 e.2) := by
      rw [assign, path, place]
      exact h.put single _
    exact ih first_set

/-- Of the entries of a table, the one at a name is all that touches it. -/
theorem Flat.touching_entries (h : Flat t) (name : String) :
    Settings.touching name t.entries = (t.entries.find? fun e => e.1 = name).toList := by
  obtain ⟨single, nodup⟩ := h
  generalize t.entries = entries at single nodup
  induction entries with
  | nil => rfl
  | cons e rest ih =>
    rw [List.forall_mem_cons] at single
    rw [List.map_cons, List.nodup_cons] at nodup
    rw [touching_cons single.1, ih single.2 nodup.2]
    by_cases here : e.1 = name
    · have later : rest.find? (fun e => e.1 = name) = none := by
        refine List.find?_eq_none.2 fun other member again => nodup.1 ?_
        rw [here, ← of_decide_eq_true again]
        exact List.mem_map_of_mem member
      simp [here, later]
    · simp [here]

end Setting

namespace Settings

open Setting

variable {name : String} {standing layer : Layer Setting} {layers : List (Layer Setting)}

/-- What stands at a name is put together there from the entries that touch it, and goes on top of
what is built in. -/
theorem child?_merge (standing : Layer Setting) (layers : List (Layer Setting)) (name : String) :
    (merge standing layers).child? name =
      match stacked none (touching name layers.flatten) with
      | none => (emptyTable.addLayer standing).child? name
      | some value => some (mergedOnto ((emptyTable.addLayer standing).child? name) value) := by
  have given_eq : layers.foldl addLayer emptyTable = emptyTable.addLayer layers.flatten := by
    rw [addLayer, List.foldl_flatten]
    rfl
  have flat : Flat (emptyTable.addLayer layers.flatten) := flat_emptyTable.addLayer _
  have given := child?_addLayer emptyTable layers.flatten name
  rw [emptyTable, child?_nil, ← emptyTable] at given
  unfold merge
  simp only [given_eq]
  rw [child?_addLayer, flat.touching_entries, ← given]
  unfold Setting.child?
  cases found : (emptyTable.addLayer layers.flatten).entries.find? fun e => e.1 = name with
  | none => rfl
  | some e =>
    -- the key of the entry is the name alone, so its value is placed right there
    have path := flat.single e (List.mem_of_find?_eq_some found)
    show some (place e.2 (pathOf e.1).tail ((emptyTable.addLayer standing).child? name)) = _
    rw [path]
    rfl

/-- Where the last entry that touches a name sets it as a whole, it is the last entry at that key. -/
theorem last?_of_setAsWhole (whole : SetAsWhole name layer) (single : pathOf name = [.child name]) :
    layer.last? name = (touching name layer).getLast?.map (·.2) := by
  have at_name : layer.filter (fun e => e.1 = name) =
      (touching name layer).filter fun e => e.1 = name := by
    rw [touching, List.filter_filter]
    refine List.filter_congr fun e _ => ?_
    by_cases here : e.1 = name <;> simp [here, single]
  unfold Layer.last?
  rw [at_name]
  cases last : (touching name layer).getLast? with
  | none => rw [List.getLast?_eq_none_iff.1 last]; rfl
  | some e =>
    obtain ⟨front, split⟩ := List.getLast?_eq_some_iff.1 last
    have here := (whole e last).1
    rw [split, List.filter_append, List.filter_cons_of_pos (by simpa using here), List.filter_nil,
      List.getLast?_concat]

theorem mergedOnto_of_ne_table {value : Setting} (old : Option Setting)
    (plain : ∀ source entries, value ≠ .table source entries) : mergedOnto old value = value := by
  cases value with
  | table source entries => exact absurd rfl (plain source entries)
  | _ => rfl

/-- A name that is set as a whole has the last value that it is given, or the one that is built
in. -/
theorem child?_merge_of_setAsWhole (whole : SetAsWhole name layers.flatten)
    (single : pathOf name = [.child name]) :
    (merge standing layers).child? name =
      (Layer.last? layers.flatten name).or ((emptyTable.addLayer standing).child? name) := by
  rw [child?_merge, last?_of_setAsWhole whole single]
  cases last : (touching name layers.flatten).getLast? with
  | none => rw [List.getLast?_eq_none_iff.1 last]; rfl
  | some e =>
    obtain ⟨front, split⟩ := List.getLast?_eq_some_iff.1 last
    obtain ⟨here, plain⟩ := whole e last
    -- whatever the entries in front leave gives way to the last value, and so does what is built in
    have replaced : stacked none (front ++ [e]) = some e.2 := by
      rw [stacked, List.foldl_append, List.foldl_cons, List.foldl_nil, here, single]
      exact congrArg some (mergedOnto_of_ne_table _ plain)
    rw [split, replaced]
    exact congrArg some (mergedOnto_of_ne_table _ plain)

end Settings

end RangeLookup
