import RangeLookup.Listing.Assembly.Labels
import RangeLookup.Listing.Assembly.Machine
import RangeLookup.Proofs.Listing.Recovery

/-!
# Runs of the code section

Each block stands at a place of its own (`Placed`), its label resolves to that place because no
label is defined twice (`Covers.nodup_blockLabels`), and a block hands on to the block below it that
the comparison chooses. So the machine passes through the blocks that `Decision.route` passes
through (`Placed.reaches_leaf`), and leaves from the block of its table (`Placed.run_leaf`).
-/

namespace RangeLookup

namespace Listing

section Runs

variable {lines : List Line} {m m' stop : Machine} {format : Format}

theorem Reaches.trans {m'' : Machine} (h : Reaches lines m m') (h' : Reaches lines m' m'') :
    Reaches lines m m'' := by
  induction h with
  | refl => exact h'
  | step first _ ih => exact .step first (ih h')

/-- A run that leaves the code passes through every state that can be reached: there is one run. -/
theorem Reaches.of_reaches (h : Reaches lines m m') (hs : Reaches lines m stop)
    (leaves : stop.step lines = .left format) : Reaches lines m' stop := by
  induction h with
  | refl => exact hs
  | step first _ ih =>
    cases hs with
    | refl =>
      rw [leaves] at first
      cases first
    | step other rest =>
      rw [first] at other
      cases other
      exact ih rest

end Runs

/-- The lines stand one after the other from a line on. -/
def Placed (lines : List Line) (line : Nat) (part : List Line) : Prop := part <+: lines.drop line

namespace Placed

variable {lines part rest : List Line} {line : Line} {k : Nat} {r : Registers}

theorem head (h : Placed lines k (line :: part)) : lines[k]? = some line := by
  obtain ⟨behind, hb⟩ := h
  have first := congrArg List.head? hb
  rw [List.head?_drop] at first
  exact first.symm

theorem tail (h : Placed lines k (line :: part)) : Placed lines (k + 1) part := by
  obtain ⟨behind, hb⟩ := h
  refine ⟨behind, ?_⟩
  rw [← List.drop_drop, ← hb]
  rfl

theorem left (h : Placed lines k (part ++ rest)) : Placed lines k part :=
  (List.prefix_append part rest).trans h

theorem right (h : Placed lines k (part ++ rest)) : Placed lines (k + part.length) rest := by
  obtain ⟨behind, hb⟩ := h
  refine ⟨behind, ?_⟩
  rw [← List.drop_drop, ← hb, List.append_assoc, List.drop_left]

theorem step_eq (h : Placed lines k (line :: part)) :
    Machine.step lines ⟨k, r⟩ = line.execute lines ⟨k, r⟩ := by
  simp only [Machine.step, h.head]

end Placed

section Labels

variable {lines front back : List Line} {first last : Nat}

theorem blockLabels_append : blockLabels (front ++ back) = blockLabels front ++ blockLabels back :=
  List.filterMap_append

theorem branchTargets_append :
    branchTargets (front ++ back) = branchTargets front ++ branchTargets back :=
  List.filterMap_append

/-- Where no label is defined twice, a branch goes to where its label stands. -/
theorem Placed.findIdx?_blockLabel {k : Nat} {part : List Line}
    (h : Placed lines k (.blockLabel first last :: part)) (unique : (blockLabels lines).Nodup) :
    lines.findIdx? (· == .blockLabel first last) = some k := by
  obtain ⟨hk, at_k⟩ := List.getElem?_eq_some_iff.1 h.head
  rw [List.findIdx?_eq_some_iff_getElem]
  refine ⟨hk, by simp [at_k], ?_⟩
  intro i hi same
  have at_i : lines[i] = .blockLabel first last := beq_iff_eq.1 same
  have apart := List.pairwise_filterMap.1 unique
  have differ := List.pairwise_iff_getElem.1 apart i k (by omega) hk hi
  rw [at_i, at_k] at differ
  exact differ _ rfl _ rfl rfl

end Labels

section Blocks

variable {name : String} {s : RangeStore} {tree left right : Decision} {pivot first last : Nat}
  {t : FlatTable} {lines : List Line} {k : Nat}

open Assembly

theorem block_eq_cons (name : String) (s : RangeStore) (tree : Decision) :
    ∃ rest, block name s tree = .blockLabel tree.first tree.last :: rest := by
  cases tree with
  | leaf t => exact ⟨_, rfl⟩
  | split pivot left right => exact ⟨_, rfl⟩

theorem blockLabels_leaf : blockLabels (block name s (.leaf t)) = [(t.first, t.last)] := rfl

theorem blockLabels_split : blockLabels (block name s (.split pivot left right)) =
    (left.first, right.last) ::
      (blockLabels (block name s left) ++ blockLabels (block name s right)) := by
  rw [← blockLabels_append]
  rfl

theorem branchTargets_split : branchTargets (block name s (.split pivot left right)) =
    (right.first, right.last) ::
      (branchTargets (block name s left) ++ branchTargets (block name s right)) := by
  rw [← branchTargets_append]
  rfl

theorem blockLabels_code : blockLabels (code name s tree) = blockLabels (block name s tree) := by
  rw [code, blockLabels_append, blockLabels_append]
  exact List.append_nil _

theorem branchTargets_code :
    branchTargets (code name s tree) = branchTargets (block name s tree) := by
  rw [code, branchTargets_append, branchTargets_append]
  exact List.append_nil _

/-- The labels of a tree for a run are for parts of that run. -/
theorem Covers.bounds_of_mem_blockLabels {label : Nat × Nat} (h : tree.Covers first last)
    (hl : label ∈ blockLabels (block name s tree)) :
    first ≤ label.1 ∧ label.1 ≤ label.2 ∧ label.2 ≤ last := by
  induction tree generalizing first last with
  | leaf t =>
    obtain ⟨rfl, rfl, hle⟩ := h
    rw [blockLabels_leaf, List.mem_singleton] at hl
    rw [hl]
    exact ⟨Nat.le_refl _, hle, Nat.le_refl _⟩
  | split pivot left right ihl ihr =>
    have whole := h.le
    obtain ⟨hle, hlt, hcl, hcr⟩ := h
    rw [blockLabels_split, List.mem_cons, List.mem_append] at hl
    rcases hl with rfl | hl | hl
    · rw [hcl.first_eq, hcr.last_eq]
      exact ⟨Nat.le_refl _, whole, Nat.le_refl _⟩
    · have inside := ihl hcl hl
      omega
    · have inside := ihr hcr hl
      omega

/-- No label is defined twice: a split has more ranges below it than either side, and the two sides
have no range in common. -/
theorem Covers.nodup_blockLabels (h : tree.Covers first last) :
    (blockLabels (block name s tree)).Nodup := by
  induction tree generalizing first last with
  | leaf t => exact List.nodup_singleton _
  | split pivot left right ihl ihr =>
    obtain ⟨hle, hlt, hcl, hcr⟩ := h
    rw [blockLabels_split, List.nodup_cons, List.mem_append, List.nodup_append]
    refine ⟨?_, ihl hcl, ihr hcr, ?_⟩
    · rw [hcl.first_eq, hcr.last_eq]
      rintro (hl | hl)
      · have inside := bounds_of_mem_blockLabels hcl hl
        omega
      · have inside := bounds_of_mem_blockLabels hcr hl
        omega
    · rintro a ha b hb rfl
      have inside := bounds_of_mem_blockLabels hcl ha
      have outside := bounds_of_mem_blockLabels hcr hb
      omega

theorem mem_blockLabels_block (name : String) (s : RangeStore) (tree : Decision) :
    (tree.first, tree.last) ∈ blockLabels (block name s tree) := by
  cases tree with
  | leaf t => exact List.mem_singleton.2 rfl
  | split pivot left right =>
    rw [blockLabels_split]
    exact List.mem_cons_self

/-- Every branch of a tree leads to a block of the tree. -/
theorem mem_blockLabels_of_mem_branchTargets {target : Nat × Nat}
    (h : target ∈ branchTargets (block name s tree)) :
    target ∈ blockLabels (block name s tree) := by
  induction tree with
  | leaf t => cases h
  | split pivot left right ihl ihr =>
    rw [branchTargets_split, List.mem_cons, List.mem_append] at h
    rw [blockLabels_split, List.mem_cons, List.mem_append]
    rcases h with rfl | h | h
    · exact .inr (.inr (mem_blockLabels_block name s right))
    · exact .inr (.inl (ihl h))
    · exact .inr (.inr (ihr h))

/-- From the block of a split the machine comes to the block of the side that the comparison
chooses, with the value unchanged. -/
theorem Placed.run_split (h : Placed lines k (block name s (.split pivot left right)))
    (unique : (blockLabels lines).Nodup) (r : Registers) :
    ∃ k' r', r'.eax = r.eax ∧ Reaches lines ⟨k, r⟩ ⟨k', r'⟩ ∧
      Placed lines k' (block name s (if (s.get pivot).low ≤ r.eax then right else left)) := by
  have compare := h.tail
  have branch := compare.tail
  have hleft := branch.tail.left
  have hright := branch.tail.right
  have to_branch : Reaches lines ⟨k, r⟩
      ⟨k + 1 + 1, r.compare (s.get pivot).low⟩ :=
    .step h.step_eq (.step compare.step_eq (.refl _))
  split
  · next hv =>
    obtain ⟨rest, cons⟩ := block_eq_cons name s right
    have resolved := (cons ▸ hright).findIdx?_blockLabel unique
    have jumps : Machine.step lines ⟨k + 1 + 1, r.compare (s.get pivot).low⟩ =
        .next ⟨k + 1 + 1 + 1 + (block name s left).length, r.compare (s.get pivot).low⟩ := by
      rw [branch.step_eq]
      simp [Line.execute, Registers.compare, UInt32.not_lt.2 hv, resolved]
    exact ⟨_, r.compare (s.get pivot).low, rfl, to_branch.trans (.step jumps (.refl _)), hright⟩
  · next hv =>
    have runs_on : Machine.step lines ⟨k + 1 + 1, r.compare (s.get pivot).low⟩ =
        .next ⟨k + 1 + 1 + 1, r.compare (s.get pivot).low⟩ := by
      rw [branch.step_eq]
      simp [Line.execute, Registers.compare, UInt32.not_le.1 hv]
    exact ⟨_, r.compare (s.get pivot).low, rfl, to_branch.trans (.step runs_on (.refl _)), hleft⟩

/-- From the block of a tree the machine comes to the block of the table that the value is led
to. -/
theorem Placed.reaches_leaf (h : Placed lines k (block name s tree))
    (unique : (blockLabels lines).Nodup) (r : Registers) :
    ∃ k' r', r'.eax = r.eax ∧ Reaches lines ⟨k, r⟩ ⟨k', r'⟩ ∧
      Placed lines k' (block name s (.leaf (tree.route s r.eax))) := by
  induction tree generalizing k r with
  | leaf t => exact ⟨k, r, rfl, .refl _, h⟩
  | split pivot left right ihl ihr =>
    obtain ⟨k', r', value, run, placed⟩ := h.run_split unique r
    rw [Decision.route]
    split
    · next hv =>
      rw [if_pos hv] at placed
      obtain ⟨k'', r'', value', run', placed'⟩ := ihr placed r'
      rw [value] at placed'
      exact ⟨k'', r'', value'.trans value, run.trans run', placed'⟩
    · next hv =>
      rw [if_neg hv] at placed
      obtain ⟨k'', r'', value', run', placed'⟩ := ihl placed r'
      rw [value] at placed'
      exact ⟨k'', r'', value'.trans value, run.trans run', placed'⟩

/-- The registers when the block of a table is left. -/
def Registers.atSearch (r : Registers) (name : String) (s : RangeStore) (t : FlatTable) :
    Registers where
  eax := r.eax - t.base s
  ebx := some (name, t.first, t.last)
  ecx := UInt32.ofNat t.count
  below := r.eax < t.base s

/-- The machine runs through the block of a table and leaves from its end. -/
theorem Placed.run_leaf (h : Placed lines k (block name s (.leaf t))) (r : Registers) :
    Reaches lines ⟨k, r⟩ ⟨k + 4, r.atSearch name s t⟩ ∧
      Machine.step lines ⟨k + 4, r.atSearch name s t⟩ = .left t.format := by
  have rebase := h.tail
  have loadTable := rebase.tail
  have loadCount := loadTable.tail
  have search := loadCount.tail
  refine ⟨?_, search.step_eq⟩
  exact .step h.step_eq (.step rebase.step_eq (.step loadTable.step_eq
    (.step loadCount.step_eq (.refl _))))

theorem placed_code (name : String) (s : RangeStore) (tree : Decision) :
    Placed (code name s tree) 2 (block name s tree) := by
  refine ⟨[.closing name .code], ?_⟩
  rfl

theorem reaches_block (name : String) (s : RangeStore) (tree : Decision) (r : Registers) :
    Reaches (code name s tree) ⟨0, r⟩ ⟨2, r⟩ :=
  .step rfl (.step rfl (.refl _))

theorem read?_code (hn : '\n' ∉ name.toList) :
    read? (textOf (code name s tree)) = some (code name s tree) := by
  rw [read?_textOf fun line hl => legible_code hn tree hl, map_unpadded_code]

end Blocks

/-- The code section of a tree for the ranges of a store does what the tree says. No label is
defined twice and every branch has its label. Whatever the registers hold, the machine leaves the
section once, and every state it comes through leads there: from the end of the block of the table
that the value is led to, for the search routine of the format of that table, with the value
relative to the table and the table and its number of entries loaded. -/
theorem code_runs_route {name : String} {s : RangeStore} {tree : Decision} (hs : 0 < s.size)
    (hc : tree.Covers 0 (s.size - 1)) (hn : '\n' ∉ name.toList) :
    ∃ lines, read? (textOf (Assembly.code name s tree)) = some lines ∧
      (blockLabels lines).Nodup ∧
      (∀ target ∈ branchTargets lines, target ∈ blockLabels lines) ∧
      ∀ r : Registers, ∃ k r',
        Placed lines k (Assembly.block name s (.leaf (tree.route s r.eax))) ∧
        Reaches lines ⟨0, r⟩ ⟨k + 4, r'⟩ ∧
        (∀ m, Reaches lines ⟨0, r⟩ m → Reaches lines m ⟨k + 4, r'⟩) ∧
        Machine.step lines ⟨k + 4, r'⟩ = .left (tree.route s r.eax).format ∧
        r'.eax = r.eax - (tree.route s r.eax).base s ∧
        r'.ebx = some (name, (tree.route s r.eax).run) ∧
        r'.ecx.toNat = (tree.route s r.eax).last - (tree.route s r.eax).first + 1 := by
  have unique : (blockLabels (Assembly.code name s tree)).Nodup := by
    rw [blockLabels_code]
    exact Covers.nodup_blockLabels hc
  refine ⟨_, read?_code hn, unique, ?_, ?_⟩
  · intro target ht
    rw [branchTargets_code] at ht
    rw [blockLabels_code]
    exact mem_blockLabels_of_mem_branchTargets ht
  · intro r
    obtain ⟨k, r', value, run, placed⟩ := (placed_code name s tree).reaches_leaf unique r
    obtain ⟨run', leaves⟩ := placed.run_leaf r'
    have whole := ((reaches_block name s tree r).trans run).trans run'
    have fits : (tree.route s r.eax).count < 4294967296 := by
      obtain ⟨-, -, hlt⟩ := (hc.tiles_all hs).bounds (tree.route_mem_leaves s r.eax)
      have most := s.size_le
      unfold FlatTable.count
      omega
    refine ⟨k, _, placed, whole, fun m hm => hm.of_reaches whole leaves, leaves, ?_, rfl, ?_⟩
    · exact congrArg (· - _) value
    · exact UInt32.toNat_ofNat_of_lt fits

/-- A value between ranges 3 and 4 and in neither is led to their table all the same. -/
theorem code_runs_route_everyLayout :
    0 < everyLayout.size ∧ everyLayoutTree.Covers 0 5 ∧ '\n' ∉ "_data.T_0_0: start".toList ∧
      ∃ lines k r',
        read? (textOf (Assembly.code "_data.T_0_0: start" everyLayout everyLayoutTree)) =
          some lines ∧
        Reaches lines ⟨0, ⟨0x403FE, none, 0, true⟩⟩ ⟨k + 4, r'⟩ ∧
        Machine.step lines ⟨k + 4, r'⟩ = .left Layout.tenSix.format ∧
        r'.eax = 0x3FE ∧ r'.ebx = some ("_data.T_0_0: start", 3, 4) ∧ r'.ecx.toNat = 2 := by
  have covers : everyLayoutTree.Covers 0 5 := by decide
  have named : '\n' ∉ "_data.T_0_0: start".toList := by decide
  have table : everyLayoutTree.route everyLayout 0x403FE = ⟨Layout.tenSix.format, 3, 4⟩ := by decide
  obtain ⟨lines, read, -, -, runs⟩ :=
    code_runs_route (by decide : 0 < everyLayout.size) covers named
  obtain ⟨k, r', -, run, -, leaves, eax, ebx, ecx⟩ := runs ⟨0x403FE, none, 0, true⟩
  rw [table] at leaves eax ebx ecx
  exact ⟨by decide, covers, named, lines, k, r', read, run, leaves, eax, ebx, ecx⟩

end Listing

end RangeLookup
