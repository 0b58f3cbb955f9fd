import RangeLookup.Listing.Assembly.Labels
import RangeLookup.Proofs.Listing.Recovery

/-!
# The two sections fit together

Both sections of an assembly listing are written from the leaves of one tree, the data section along
the walk over them and the code section by recursion over the tree, so the labels of tables
(`tableLabels_data`), the blocks (`searches_sectionLines`) and the addresses that blocks load
(`loadedTables_code`) are three readings of one sequence. It repeats no run, since the leaves tile
the store (`Tiles.nodup_run`).
-/

namespace RangeLookup

/-- Tables one after the other hold different runs. -/
theorem Tiles.nodup_run {tables : List FlatTable} {start stop : Nat} (h : Tiles tables start stop) :
    (tables.map FlatTable.run).Nodup := by
  induction tables generalizing start with
  | nil => exact List.nodup_nil
  | cons t rest ih =>
    obtain ⟨rfl, hle, hrest⟩ := h
    rw [List.map_cons, List.nodup_cons]
    refine ⟨?_, ih hrest⟩
    intro again
    obtain ⟨u, hu, same⟩ := List.mem_map.1 again
    have later := (hrest.bounds hu).1
    have first : u.first = t.first := congrArg Prod.fst same
    omega

namespace Layout

/-- The unit of the directives of a layout. -/
def unit : Layout → DataUnit
  | uniform unit => unit
  | twelve => .byte
  | tenSix => .word

/-- How many operands a directive of a layout has. -/
def operands : Layout → Nat
  | uniform _ => 2
  | twelve => 3
  | tenSix => 1

theorem unit_directiveOf (l : Layout) (e : Entry) : (l.directiveOf e).unit = l.unit := by
  cases l <;> rfl

theorem length_operands_directiveOf (l : Layout) (e : Entry) :
    (l.directiveOf e).operands.length = l.operands := by
  cases l <;> rfl

end Layout

namespace Listing

section

variable {name : String} {s : RangeStore} {tree : Decision} {t : FlatTable} {text : String}

open Assembly

/-- A listing is written exactly when every table of the tree is. -/
theorem assembly_eq_ok_iff : assembly name s tree = .ok text ↔
    (∀ t ∈ tree.leaves, t.Writable s) ∧ textOf (allLines name s tree) = text := by
  unfold assembly
  cases hl : lines name s tree with
  | error reason =>
    have refused : ¬ ∀ t ∈ tree.leaves, t.Writable s := fun all => by
      rw [lines_eq_ok_iff.2 ⟨all, rfl⟩] at hl
      cases hl
    simp [Except.map, refused]
  | ok ls =>
    obtain ⟨all, rfl⟩ := lines_eq_ok_iff.1 hl
    simp only [Except.map, Except.ok.injEq]
    exact (and_iff_right all).symm

theorem sectionLines_data (name : String) (s : RangeStore) (tree : Decision) :
    sectionLines ((allLines name s tree).map Line.unpadded) name .data =
      .sectionLabel name .data :: (tree.leaves.flatMap (tableLines s)).map Line.unpadded := by
  have shape : (allLines name s tree).map Line.unpadded =
      .opening name .data :: ((.sectionLabel name .data ::
        (tree.leaves.flatMap (tableLines s)).map Line.unpadded) ++
          .closing name .data :: code name s tree) := by
    rw [allLines, List.map_append, map_unpadded_code]
    simp [dataLines, Line.unpadded]
  have inside : ∀ line ∈ .sectionLabel name .data ::
      (tree.leaves.flatMap (tableLines s)).map Line.unpadded,
      (line != .closing name .data) = true := by
    apply bne_of_not_mem
    simp only [List.mem_cons, List.mem_map, List.mem_flatMap, reduceCtorEq, false_or]
    rintro ⟨line, ⟨t, -, hl⟩, same⟩
    rcases mem_tableLines hl with rfl | rfl | ⟨d, -, rfl⟩ <;> cases same
  rw [sectionLines, shape, List.dropWhile_cons_of_neg (by simp), List.drop_one, List.tail_cons,
    List.takeWhile_append_of_pos inside, List.takeWhile_cons_of_neg (by simp), List.append_nil]

theorem closing_not_mem_block (part : Section) (tree : Decision) :
    .closing name part ∉ block name s tree := by
  induction tree with
  | leaf t => simp [block, searchBlock]
  | split pivot left right ihl ihr =>
    simp only [block, List.mem_cons, List.mem_append, reduceCtorEq, false_or, not_or]
    exact ⟨ihl, ihr⟩

theorem sectionLines_code (name : String) (s : RangeStore) (tree : Decision) :
    sectionLines ((allLines name s tree).map Line.unpadded) name .code =
      .sectionLabel name .code :: block name s tree := by
  have before : ∀ line ∈ (dataLines name s tree.leaves).map Line.unpadded,
      (line != .opening name .code) = true := by
    apply bne_of_not_mem
    rw [List.mem_map]
    rintro ⟨line, hl, same⟩
    rcases mem_dataLines hl with rfl | rfl | ⟨t, -, ht⟩ | rfl
    · cases same
    · cases same
    · rcases mem_tableLines ht with rfl | rfl | ⟨d, -, rfl⟩ <;> cases same
    · cases same
  have inside : ∀ line ∈ .sectionLabel name .code :: block name s tree,
      (line != .closing name .code) = true := by
    apply bne_of_not_mem
    rw [List.mem_cons, not_or]
    exact ⟨by simp, closing_not_mem_block .code tree⟩
  have shape : code name s tree = .opening name .code ::
      ((.sectionLabel name .code :: block name s tree) ++ [.closing name .code]) := rfl
  rw [sectionLines, allLines, List.map_append, map_unpadded_code, shape,
    List.dropWhile_append_of_pos before, List.dropWhile_cons_of_neg (by simp), List.drop_one,
    List.tail_cons, List.takeWhile_append_of_pos inside, List.takeWhile_cons_of_neg (by simp),
    List.append_nil]

theorem tableLabels_tableLines (s : RangeStore) (t : FlatTable) :
    tableLabels ((tableLines s t).map Line.unpadded) = [t.run] := by
  have none : tableLabels (((directives s t).map Line.data).map Line.unpadded) = [] := by
    rw [tableLabels, List.filterMap_eq_nil_iff, List.map_map]
    intro line hl
    obtain ⟨d, -, rfl⟩ := List.mem_map.1 hl
    rfl
  show t.run :: tableLabels (((directives s t).map Line.data).map Line.unpadded) = [t.run]
  rw [none]

/-- The labels of tables are those of the leaves, in order. -/
theorem tableLabels_data (name : String) (s : RangeStore) (tables : List FlatTable) :
    tableLabels (.sectionLabel name .data :: (tables.flatMap (tableLines s)).map Line.unpadded) =
      tables.map FlatTable.run := by
  show tableLabels ((tables.flatMap (tableLines s)).map Line.unpadded) = _
  induction tables with
  | nil => rfl
  | cons t rest ih =>
    have parts : tableLabels (((t :: rest).flatMap (tableLines s)).map Line.unpadded) =
        tableLabels ((tableLines s t).map Line.unpadded) ++
          tableLabels ((rest.flatMap (tableLines s)).map Line.unpadded) := by
      rw [List.flatMap_cons, List.map_append]
      exact List.filterMap_append
    rw [parts, tableLabels_tableLines, ih]
    rfl

/-- The blocks of the code section are those of the leaves, in order. -/
theorem searches_sectionLines (name : String) (s : RangeStore) (tree : Decision) :
    searches (.sectionLabel name .code :: block name s tree) =
      tree.leaves.map (searchOf name s) := by
  have blocks := searches_block name s tree []
  rw [List.append_nil] at blocks
  rw [searches_cons (by simp), blocks]
  exact List.append_nil _

/-- Addresses are loaded for the leaves, in order, and nowhere else. -/
theorem loadedTables_code (name : String) (s : RangeStore) (tree : Decision) :
    loadedTables (.sectionLabel name .code :: block name s tree) =
      tree.leaves.map fun t => (name, t.run) := by
  show loadedTables (block name s tree) = _
  induction tree with
  | leaf t =>
    rw [Decision.leaves_leaf]
    rfl
  | split pivot left right ihl ihr =>
    have parts : loadedTables (block name s (.split pivot left right)) =
        loadedTables (block name s left) ++ loadedTables (block name s right) :=
      List.filterMap_append
    rw [parts, ihl, ihr, Decision.leaves_split, List.map_append]

/-- Under the label of a leaf stand as many directives as its block counts, of the kind that its
block searches. -/
theorem directives_of_leaf {start stop : Nat} (tiles : Tiles tree.leaves start stop)
    (hs : stop ≤ s.size) (ht : t ∈ tree.leaves) (hw : t.Writable s) :
    (directivesUnder ((allLines name s tree).map Line.unpadded) name t.first t.last).length =
        t.count ∧
      ∃ l : Layout, l.format = t.format ∧
        ∀ d ∈ directivesUnder ((allLines name s tree).map Line.unpadded) name t.first t.last,
          d.unit = l.unit ∧ d.operands.length = l.operands := by
  obtain ⟨-, hle, hlt⟩ := tiles.bounds ht
  obtain ⟨l, format, -⟩ := hw
  rw [directivesUnder_allLines tiles ht, directives_eq format]
  constructor
  · rw [List.length_map, List.length_map, FlatTable.length_entries hle (by omega)]
  · refine ⟨l, format, ?_⟩
    intro d hd
    rw [List.map_map] at hd
    obtain ⟨e, -, rfl⟩ := List.mem_map.1 hd
    exact ⟨l.unit_directiveOf e, l.length_operands_directiveOf e⟩

end

/-- The data and the code of a listing are linked to each other. The labels of tables differ, and
they stand in the order of the blocks of the leaves; every address that the code loads stands in
such a block and is the label of one table, and every table has its address loaded in one block. A
block counts the directives under the label that it loads, and they are of the kind of the layout
for the format that it searches. -/
theorem sections_linked {name : String} {s : RangeStore} {tree : Decision} {text : String}
    (hs : 0 < s.size) (hc : tree.Covers 0 (s.size - 1)) (hn : '\n' ∉ name.toList)
    (h : assembly name s tree = .ok text) :
    ∃ lines data code, read? text = some lines ∧ sectionLines lines name .data = data ∧
      sectionLines lines name .code = code ∧
      (tableLabels data).Nodup ∧
      tableLabels data = tree.leaves.map FlatTable.run ∧
      (searches code).map (fun b => (b.first, b.last)) = tableLabels data ∧
      (searches code).map Search.table = loadedTables code ∧
      (∀ label ∈ loadedTables code, label.1 = name ∧ (tableLabels data).count label.2 = 1) ∧
      (∀ label ∈ tableLabels data, (loadedTables code).count (name, label) = 1) ∧
      ∀ b ∈ searches code,
        (directivesUnder lines b.name b.first b.last).length = b.count ∧
        ∃ l : Layout, l.format = b.format ∧
          ∀ d ∈ directivesUnder lines b.name b.first b.last,
            d.unit = l.unit ∧ d.operands.length = l.operands := by
  obtain ⟨writable, rfl⟩ := assembly_eq_ok_iff.1 h
  have tiles := hc.tiles_all hs
  have unique : (tree.leaves.map FlatTable.run).Nodup := tiles.nodup_run
  have unique_loaded : (tree.leaves.map fun t => (name, t.run)).Nodup := by
    have mapped := unique.map (f := Prod.mk name) fun a b same => (Prod.mk.inj same).2
    rwa [List.map_map] at mapped
  refine ⟨_, _, _, read?_textOf fun line hl => Assembly.legible_allLines hn hl,
    sectionLines_data name s tree, sectionLines_code name s tree, ?_⟩
  rw [tableLabels_data, searches_sectionLines, loadedTables_code]
  refine ⟨unique, rfl, ?_, ?_, ?_, ?_, ?_⟩
  · rw [List.map_map]
    rfl
  · rw [List.map_map]
    rfl
  · intro label hl
    obtain ⟨t, ht, rfl⟩ := List.mem_map.1 hl
    exact ⟨rfl, List.count_eq_one_of_mem unique (List.mem_map_of_mem ht)⟩
  · intro label hl
    obtain ⟨t, ht, rfl⟩ := List.mem_map.1 hl
    exact List.count_eq_one_of_mem unique_loaded (List.mem_map.2 ⟨t, ht, rfl⟩)
  · intro b hb
    obtain ⟨t, ht, rfl⟩ := List.mem_map.1 hb
    exact directives_of_leaf tiles (Nat.le_refl _) ht (writable t ht)

theorem writable_everyLayout : ∀ t ∈ everyLayoutTree.leaves, t.Writable everyLayout := by
  have leaves : ∀ t ∈ everyLayoutTree.leaves, t.first ≤ t.last ∧ t.last < everyLayout.size ∧
      (t.cost everyLayout).isFinite = true ∧ t.format.Packable := by
    simp only [everyLayoutTree, Decision.leaves_split, Decision.leaves_leaf]
    decide
  intro t ht
  obtain ⟨hle, hl, finite, packable⟩ := leaves t ht
  exact FlatTable.writable_of_isFinite hle hl finite packable

theorem sections_linked_everyLayout :
    0 < everyLayout.size ∧ everyLayoutTree.Covers 0 5 ∧ '\n' ∉ "_data.T_0_0: start".toList ∧
      ∃ text, assembly "_data.T_0_0: start" everyLayout everyLayoutTree = .ok text ∧
        ∃ lines data code, read? text = some lines ∧
          sectionLines lines "_data.T_0_0: start" .data = data ∧
          sectionLines lines "_data.T_0_0: start" .code = code ∧
          tableLabels data = [(0, 0), (1, 1), (2, 2), (3, 4), (5, 5)] ∧
          (searches code).map (fun b => (b.first, b.last)) = tableLabels data ∧
          (searches code).map Search.table = loadedTables code := by
  have covers : everyLayoutTree.Covers 0 5 := by decide
  have named : '\n' ∉ "_data.T_0_0: start".toList := by decide
  have written : assembly "_data.T_0_0: start" everyLayout everyLayoutTree = .ok _ :=
    assembly_eq_ok_iff.2 ⟨writable_everyLayout, rfl⟩
  have leaves : everyLayoutTree.leaves.map FlatTable.run =
      [(0, 0), (1, 1), (2, 2), (3, 4), (5, 5)] := by
    simp only [everyLayoutTree, Decision.leaves_split, Decision.leaves_leaf]
    rfl
  obtain ⟨lines, data, code, read, hdata, hcode, -, labels, blocks, loaded, -⟩ :=
    sections_linked (by decide : 0 < everyLayout.size) covers named written
  rw [leaves] at labels
  exact ⟨by decide, covers, named, _, written, lines, data, code, read, hdata, hcode, labels,
    blocks, loaded⟩

end Listing

end RangeLookup
