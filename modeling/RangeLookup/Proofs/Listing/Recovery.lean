import RangeLookup.Proofs.Cost.Order
import RangeLookup.Proofs.Decision.Tiling
import RangeLookup.Proofs.FlatTable
import RangeLookup.Proofs.Listing.Reading
import RangeLookup.Proofs.Listing.Sections

/-!
# The ranges behind an assembly listing

The ranges of a store are recovered from the assembly listing of a tree. The blocks of the code
section give the leaves in order (`searches_block`), the data under the label of a leaf are the
directives of its table, since no earlier table begins at the same range
(`directivesUnder_allLines`), and they unpack to the entries. Since the leaves tile the store, so do
the ranges that come out of them (`Tiles.flatMap_slice`).
-/

namespace RangeLookup

theorem Entry.rangeFrom_relative (base : UInt32) (r : Interval) :
    rangeFrom base ⟨r.low - base, r.span⟩ = r := by
  have low : base + (r.low - base) = r.low := by rw [UInt32.add_comm, UInt32.sub_add_cancel]
  have high : r.low + r.span = r.high := by
    rw [Interval.span, UInt32.add_comm, UInt32.sub_add_cancel]
  rw [rangeFrom, low, high]

/-- Entries moved back to where their table begins are the ranges of the run. -/
theorem FlatTable.map_rangeFrom_entries (s : RangeStore) (t : FlatTable) :
    (t.entries s).map (Entry.rangeFrom (t.base s)) = s.slice t.first t.last := by
  rw [entries, List.map_map]
  exact (List.map_congr_left fun r _ => Entry.rangeFrom_relative _ r).trans (List.map_id _)

/-- A table that exists in a format with a byte layout can be written. -/
theorem FlatTable.writable_of_isFinite {s : RangeStore} {t : FlatTable} (hle : t.first ≤ t.last)
    (hl : t.last < s.size) (hf : (t.cost s).isFinite = true) (hp : t.format.Packable) :
    t.Writable s := by
  obtain ⟨l, format⟩ := Layout.packable_iff.1 hp
  have feasible := cost_ne_infinite_iff.1 (Cost.isFinite_iff.1 hf)
  refine ⟨l, format, ?_⟩
  rw [format]
  exact (feasible_iff_fits hle hl).1 feasible

namespace Tiles

variable {tables : List FlatTable} {start stop : Nat} {t : FlatTable} {s : RangeStore}

/-- The ranges of tables one after the other are the ranges of the run, each once and in order. -/
theorem flatMap_slice (h : Tiles tables start stop) (hs : stop ≤ s.size) :
    tables.flatMap (fun t => s.slice t.first t.last) =
      (List.range' start (stop - start)).map s.get := by
  induction tables generalizing start with
  | nil =>
    obtain rfl : start = stop := h
    simp
  | cons t rest ih =>
    obtain ⟨rfl, hle, hrest⟩ := h
    have tail := hrest.le
    have run : List.range' t.first (stop - t.first) =
        List.range' t.first (t.last + 1 - t.first) ++
          List.range' (t.last + 1) (stop - (t.last + 1)) := by
      have parts : stop - t.first = (t.last + 1 - t.first) + (stop - (t.last + 1)) := by omega
      have middle : t.last + 1 = t.first + (t.last + 1 - t.first) := by omega
      rw [parts, ← List.range'_append_1, ← middle]
    rw [List.flatMap_cons, RangeStore.slice_eq_map_get (by omega), ih hrest, run, List.map_append]

end Tiles

/-- The leaves of a tree for all ranges of a store hold the ranges of the store, in order. -/
theorem Decision.Covers.flatMap_slice {tree : Decision} {s : RangeStore} (hs : 0 < s.size)
    (h : tree.Covers 0 (s.size - 1)) :
    tree.leaves.flatMap (fun t => s.slice t.first t.last) = s.toList := by
  rw [(h.tiles_all hs).flatMap_slice (Nat.le_refl _), RangeStore.toList_eq_map_get,
    List.range_eq_range', Nat.sub_zero]

namespace Listing

section Searches

variable {name : String} {s : RangeStore} {front : List Line} {line : Line}

/-- What the block of a leaf does. -/
def searchOf (name : String) (s : RangeStore) (t : FlatTable) : Search :=
  ⟨t.base s, name, t.first, t.last, t.count, t.format⟩

theorem searches_cons (h : ∀ base, line ≠ .rebase base) (rest : List Line) :
    searches (line :: rest) = searches rest := by
  cases line with
  | rebase base => exact absurd rfl (h base)
  | _ => simp [searches]

theorem searches_append (h : ∀ line ∈ front, ∀ base, line ≠ .rebase base) (rest : List Line) :
    searches (front ++ rest) = searches rest := by
  induction front with
  | nil => rfl
  | cons line front ih =>
    rw [List.forall_mem_cons] at h
    rw [List.cons_append, searches_cons h.1, ih h.2]

/-- The blocks of a tree are those of its leaves, in order. -/
theorem searches_block (name : String) (s : RangeStore) (tree : Decision) (rest : List Line) :
    searches (Assembly.block name s tree ++ rest) =
      tree.leaves.map (searchOf name s) ++ searches rest := by
  induction tree generalizing rest with
  | leaf t => simp [Assembly.block, Assembly.searchBlock, searches, searchOf]
  | split pivot left right ihl ihr =>
    simp only [Assembly.block, List.cons_append, List.append_assoc, Decision.leaves_split,
      List.map_append]
    rw [searches_cons (by simp), searches_cons (by simp), searches_cons (by simp), ihl, ihr]

theorem searches_code (name : String) (s : RangeStore) (tree : Decision) :
    searches (Assembly.code name s tree) = tree.leaves.map (searchOf name s) := by
  rw [Assembly.code, List.append_assoc]
  show searches (.opening name .code :: .sectionLabel name .code ::
    (Assembly.block name s tree ++ [.closing name .code])) = _
  rw [searches_cons (by simp), searches_cons (by simp), searches_block, searches_cons (by simp)]
  simp [searches]

end Searches

namespace Assembly

variable {name : String} {s : RangeStore} {tables : List FlatTable} {t : FlatTable} {line : Line}

theorem exists_of_mem_directives {d : Directive} (h : d ∈ directives s t) :
    ∃ l : Layout, ∃ e, l.directiveOf e = d := by
  unfold directives at h
  split at h
  · next l _ =>
    obtain ⟨e, -, he⟩ := List.mem_map.1 h
    exact ⟨l, e, he⟩
  · cases h

theorem mem_tableLines (h : line ∈ tableLines s t) :
    line = .align ∨ line = .tableLabel t.first t.last ∨ ∃ d ∈ directives s t, line = .data d := by
  simpa only [tableLines, List.mem_cons, List.mem_map, eq_comm] using h

theorem mem_dataLines (h : line ∈ dataLines name s tables) :
    line = .opening name .data ∨ line = .sectionLabel name .data ∨
      (∃ t ∈ tables, line ∈ tableLines s t) ∨ line = .closing name .data := by
  simpa only [dataLines, List.mem_cons, List.mem_append, List.mem_flatMap, List.not_mem_nil,
    or_false] using h

theorem legible_dataLines (hn : '\n' ∉ name.toList) (h : line ∈ dataLines name s tables) :
    line.Legible := by
  rcases mem_dataLines h with rfl | rfl | ⟨t, -, ht⟩ | rfl
  · exact hn
  · exact hn
  · rcases mem_tableLines ht with rfl | rfl | ⟨d, hd, rfl⟩
    · trivial
    · trivial
    · obtain ⟨l, e, rfl⟩ := exists_of_mem_directives hd
      exact l.operands_directiveOf_ne_nil e
  · exact hn

theorem legible_block (hn : '\n' ∉ name.toList) (tree : Decision)
    (h : line ∈ block name s tree) : line.Legible := by
  induction tree with
  | leaf t =>
    simp only [block, searchBlock, List.mem_cons, List.not_mem_nil, or_false] at h
    rcases h with rfl | rfl | rfl | rfl | rfl <;> first | exact hn | trivial
  | split pivot left right ihl ihr =>
    simp only [block, List.mem_cons, List.mem_append] at h
    rcases h with rfl | rfl | rfl | h | h
    · trivial
    · trivial
    · trivial
    · exact ihl h
    · exact ihr h

theorem legible_code (hn : '\n' ∉ name.toList) (tree : Decision) (h : line ∈ code name s tree) :
    line.Legible := by
  simp only [code, List.mem_append, List.mem_cons, List.not_mem_nil, or_false] at h
  rcases h with ((rfl | rfl) | h) | rfl
  · exact hn
  · exact hn
  · exact legible_block hn tree h
  · exact hn

theorem legible_allLines (hn : '\n' ∉ name.toList) {tree : Decision}
    (h : line ∈ allLines name s tree) : line.Legible := by
  rcases List.mem_append.1 h with h | h
  · exact legible_dataLines hn h
  · exact legible_code hn tree h

theorem map_unpadded_code (name : String) (s : RangeStore) (tree : Decision) :
    (code name s tree).map Line.unpadded = code name s tree := by
  have inner : (block name s tree).map Line.unpadded = block name s tree := by
    induction tree with
    | leaf t => rfl
    | split pivot left right ihl ihr =>
      simp only [block, List.map_cons, List.map_append, ihl, ihr]
      rfl
  simp only [code, List.map_append, inner]
  rfl

end Assembly

section Data

variable {name : String} {s : RangeStore} {tree : Decision} {t : FlatTable}

theorem searches_allLines (name : String) (s : RangeStore) (tree : Decision) :
    searches ((Assembly.allLines name s tree).map Line.unpadded) =
      tree.leaves.map (searchOf name s) := by
  rw [Assembly.allLines, List.map_append, Assembly.map_unpadded_code, searches_append,
    searches_code]
  intro line hl base
  obtain ⟨line, hm, rfl⟩ := List.mem_map.1 hl
  rcases Assembly.mem_dataLines hm with rfl | rfl | ⟨t, -, ht⟩ | rfl
  · simp [Line.unpadded]
  · simp [Line.unpadded]
  · rcases Assembly.mem_tableLines ht with rfl | rfl | ⟨d, -, rfl⟩ <;> simp [Line.unpadded]
  · simp [Line.unpadded]

theorem leadingData_append (directives : List Directive) {rest : List Line}
    (h : leadingData rest = []) :
    leadingData (directives.map Line.data ++ rest) = directives := by
  induction directives with
  | nil => exact h
  | cons d directives ih => rw [List.map_cons, List.cons_append, leadingData, ih]

/-- The directives between a label and what is no directive, the label standing in its section and
not before. -/
theorem directivesUnder_append {front before after : List Line} {directives : List Directive}
    {first last : Nat} (hf : .sectionLabel name .data ∉ front)
    (hb : .tableLabel first last ∉ before) (ha : leadingData after = []) :
    directivesUnder (front ++ .sectionLabel name .data :: (before ++ .tableLabel first last ::
      (directives.map .data ++ after))) name first last = directives := by
  rw [directivesUnder, List.dropWhile_append_of_pos (bne_of_not_mem hf),
    List.dropWhile_cons_of_neg (by simp)]
  show leadingData ((List.dropWhile (· != .tableLabel first last) (before ++ _)).drop 1) = _
  rw [List.dropWhile_append_of_pos (bne_of_not_mem hb), List.dropWhile_cons_of_neg (by simp),
    List.drop_one]
  exact leadingData_append directives ha

/-- Under the label of a leaf stand the directives of its table: no earlier leaf has the label. -/
theorem directivesUnder_allLines {start stop : Nat} (tiles : Tiles tree.leaves start stop)
    (ht : t ∈ tree.leaves) :
    directivesUnder ((Assembly.allLines name s tree).map Line.unpadded) name t.first t.last =
      (Assembly.directives s t).map Directive.unpadded := by
  obtain ⟨front, back, leaves⟩ := List.append_of_mem ht
  rw [leaves] at tiles
  have shape : (Assembly.allLines name s tree).map Line.unpadded =
      [.opening name .data] ++ .sectionLabel name .data ::
        (((front.flatMap (Assembly.tableLines s)).map Line.unpadded ++ [.align]) ++
          .tableLabel t.first t.last :: (((Assembly.directives s t).map Directive.unpadded).map .data ++
            ((back.flatMap (Assembly.tableLines s)).map Line.unpadded ++
              .closing name .data :: (Assembly.code name s tree).map Line.unpadded))) := by
    simp [Assembly.allLines, leaves, Assembly.dataLines, Assembly.tableLines, Line.unpadded,
      Function.comp_def]
  rw [shape]
  refine directivesUnder_append (by simp) ?_ (by cases back <;> rfl)
  simp only [List.mem_append, List.mem_map, List.mem_flatMap, List.mem_singleton, reduceCtorEq,
    or_false]
  rintro ⟨line, ⟨u, hu, hl⟩, same⟩
  rcases Assembly.mem_tableLines hl with rfl | rfl | ⟨d, -, rfl⟩
  · cases same
  · exact tiles.first_ne u hu (Line.tableLabel.inj same).1
  · cases same

/-- The directives of a writable table, assembled and unpacked, are the ranges of its run. -/
theorem ranges?_searchOf {lines : List Line} (h : t.Writable s)
    (under : directivesUnder lines name t.first t.last =
      (Assembly.directives s t).map Directive.unpadded) :
    (searchOf name s t).ranges? lines = some (s.slice t.first t.last) := by
  obtain ⟨l, hl, fits⟩ := h
  have bytes : (directivesUnder lines name t.first t.last).flatMap Directive.assemble =
      (t.entries s).flatMap l.bytesOf := by
    rw [under, Assembly.directives_eq hl, List.map_map, List.flatMap_map]
    exact List.flatMap_congr fun e _ => l.assemble_directiveOf e
  have entries : unpack t.format ((t.entries s).flatMap l.bytesOf) = .ok (t.entries s) := by
    rw [unpack, Layout.ofFormat_eq_ok_iff.2 hl]
    exact Layout.decodeAll_flatMap fits
  show ((unpack t.format ((directivesUnder lines name t.first t.last).flatMap
    Directive.assemble)).map (·.map (Entry.rangeFrom (t.base s)))).toOption = _
  rw [bytes, entries]
  exact congrArg some (t.map_rangeFrom_entries s)

end Data

/-- An assembly listing loses nothing: the tree of a store that holds some range can be written, and
what is read back from the tables of its blocks are the ranges of the store, each once and in
order. -/
theorem assembly_recovers {name : String} {s : RangeStore} {tree : Decision} (hs : 0 < s.size)
    (hc : tree.Covers 0 (s.size - 1)) (hn : '\n' ∉ name.toList)
    (h : ∀ t ∈ tree.leaves, (t.cost s).isFinite = true ∧ t.format.Packable) :
    ∃ text, assembly name s tree = .ok text ∧ ranges? text = some s.toList := by
  have tiles := hc.tiles_all hs
  have writable : ∀ t ∈ tree.leaves, t.Writable s := by
    intro t ht
    obtain ⟨finite, packable⟩ := h t ht
    obtain ⟨-, hle, hlt⟩ := tiles.bounds ht
    exact FlatTable.writable_of_isFinite hle hlt finite packable
  have written : Assembly.lines name s tree = .ok (Assembly.allLines name s tree) :=
    Assembly.lines_eq_ok_iff.2 ⟨writable, rfl⟩
  have read : read? (textOf (Assembly.allLines name s tree)) =
      some ((Assembly.allLines name s tree).map Line.unpadded) :=
    read?_textOf fun line hl => Assembly.legible_allLines hn hl
  have tables : (searches ((Assembly.allLines name s tree).map Line.unpadded)).mapM
      (Search.ranges? ((Assembly.allLines name s tree).map Line.unpadded)) =
        some (tree.leaves.map fun t => s.slice t.first t.last) := by
    rw [searches_allLines, List.mapM_map]
    exact mapM_eq_some fun t ht =>
      ranges?_searchOf (writable t ht) (directivesUnder_allLines tiles ht)
  refine ⟨_, by rw [assembly, written]; rfl, ?_⟩
  simp only [ranges?, read, tables, Option.bind_eq_bind, Option.bind_some, Option.pure_def]
  rw [← List.flatMap_def, hc.flatMap_slice hs]

/-- Six ranges whose offsets and spans are at the bounds of the five formats that hold them. -/
def everyLayout : RangeStore :=
  ⟨#[⟨0x1, 0x100⟩, ⟨0x200, 0x101FF⟩, ⟨0x20000, 0x20FFF⟩, ⟨0x40000, 0x40000⟩, ⟨0x403FF, 0x4043E⟩,
    ⟨0x50000, 0xFFFFFFFF⟩], by decide⟩

/-- A tree over them with a leaf for each layout. -/
def everyLayoutTree : Decision :=
  .split 1
    (.split 0 (.leaf ⟨(Layout.uniform .byte).format, 0, 0⟩)
      (.leaf ⟨(Layout.uniform .word).format, 1, 1⟩))
    (.split 2 (.leaf ⟨Layout.twelve.format, 2, 2⟩)
      (.split 4 (.leaf ⟨Layout.tenSix.format, 3, 4⟩)
        (.leaf ⟨(Layout.uniform .doubleWord).format, 5, 5⟩)))

theorem assembly_recovers_everyLayout :
    0 < everyLayout.size ∧ everyLayoutTree.Covers 0 5 ∧
      (∀ t ∈ everyLayoutTree.leaves, (t.cost everyLayout).isFinite = true ∧ t.format.Packable) ∧
      ∃ text, assembly "_data.T_0_0: start" everyLayout everyLayoutTree = .ok text ∧
        ranges? text = some everyLayout.toList := by
  have leaves : ∀ t ∈ everyLayoutTree.leaves,
      (t.cost everyLayout).isFinite = true ∧ t.format.Packable := by
    simp only [everyLayoutTree, Decision.leaves_split, Decision.leaves_leaf]
    decide
  have covers : everyLayoutTree.Covers 0 5 := by decide
  exact ⟨by decide, covers, leaves, assembly_recovers (by decide) covers (by decide) leaves⟩

end Listing

end RangeLookup
