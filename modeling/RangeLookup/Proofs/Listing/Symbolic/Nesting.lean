import RangeLookup.Listing.Symbolic.Nesting
import RangeLookup.Proofs.Listing.Symbolic.Characters

/-!
# The parentheses of the symbolic listing

The closing parentheses that a table gathers are those of the splits that end with it, so the
listing is the plain one, in which every node closes its own (`node_eq_plain`). Of that text each
node is one group, whatever was opened before and whatever follows (`scan_plain`), and a text whose
groups are found is balanced (`balanced_of_nesting?`). The word of a table stands at the tables
only: every other parenthesis has a digit behind it, or the word of a split (`tables_plain`).
-/

namespace RangeLookup

namespace Listing

section Scan

variable {front rest : List Char} {parts before groups : List Nest}
  {opened : List (String × List Nest)} {c : Char} {head : String}

theorem scan_cons (ho : c ≠ '(') (hc : c ≠ ')') :
    scan (c :: rest) parts opened = scan rest parts opened := by
  rw [scan, if_neg ho, if_neg hc]

theorem scan_append (ho : '(' ∉ front) (hc : ')' ∉ front) :
    scan (front ++ rest) parts opened = scan rest parts opened := by
  induction front with
  | nil => rfl
  | cons c front ih =>
    rw [List.mem_cons, not_or] at ho hc
    rw [List.cons_append, scan_cons (Ne.symm ho.1) (Ne.symm hc.1), ih ho.2 hc.2]

theorem scan_open {word : List Char} (h : ' ' ∉ word) :
    scan ('(' :: (word ++ ' ' :: rest)) parts opened =
      scan (word ++ ' ' :: rest) [] ((String.ofList word, parts) :: opened) := by
  have first : (word ++ ' ' :: rest).takeWhile (· != ' ') = word := by
    rw [List.takeWhile_append_of_pos (bne_of_not_mem h), List.takeWhile_cons_of_neg (by simp),
      List.append_nil]
  rw [scan, if_pos rfl, first]

theorem scan_close : scan (')' :: rest) parts ((head, before) :: opened) =
    scan rest (.group head parts.reverse :: before) opened := by
  rw [scan, if_neg (by decide), if_pos rfl]
  rfl

/-- A text whose groups are found closes what it opens and what was opened before, and nothing
before it was opened. -/
theorem count_of_scan (h : scan rest parts opened = some groups) :
    rest.count ')' = rest.count '(' + opened.length ∧
      ∀ front, front <+: rest → front.count ')' ≤ front.count '(' + opened.length := by
  induction rest generalizing parts opened with
  | nil =>
    have none_open : opened = [] := by
      by_contra some_open
      simp [scan, some_open] at h
    refine ⟨by simp [none_open], ?_⟩
    intro front hf
    simp [List.prefix_nil.1 hf]
  | cons c rest ih =>
    rw [scan] at h
    split at h
    · next ho =>
      subst ho
      obtain ⟨whole, fronts⟩ := ih h
      rw [List.length_cons] at whole fronts
      refine ⟨by simp; omega, ?_⟩
      intro front hf
      rcases List.prefix_cons_iff.1 hf with rfl | ⟨front, rfl, hr⟩
      · simp
      · have inside := fronts front hr
        simp
        omega
    · next ho =>
      split at h
      · next hc =>
        subst hc
        obtain ⟨⟨head, before⟩, first, h⟩ := Option.bind_eq_some_iff.1 h
        obtain ⟨outer, rfl⟩ := List.head?_eq_some_iff.1 first
        obtain ⟨whole, fronts⟩ := ih h
        rw [List.tail_cons] at whole fronts
        refine ⟨by simp; omega, ?_⟩
        intro front hf
        rcases List.prefix_cons_iff.1 hf with rfl | ⟨front, rfl, hr⟩
        · simp
        · have inside := fronts front hr
          simp
          omega
      · next hc =>
        obtain ⟨whole, fronts⟩ := ih h
        refine ⟨by simpa [ho, hc] using whole, ?_⟩
        intro front hf
        rcases List.prefix_cons_iff.1 hf with rfl | ⟨front, rfl, hr⟩
        · simp
        · simpa [ho, hc] using fronts front hr

theorem balanced_of_nesting? (h : nesting? rest = some groups) : Balanced rest := by
  obtain ⟨whole, fronts⟩ := count_of_scan h
  exact ⟨whole.symm, fronts⟩

end Scan

section Occurrences

variable {front rest : List Char} {c : Char}

theorem occurrences_of_not_prefix {word : List Char} (h : word.isPrefixOf (c :: rest) = false) :
    occurrences word (c :: rest) = occurrences word rest := by
  rw [occurrences, h]
  exact Nat.zero_add _

theorem tables_cons (h : c ≠ '(') :
    occurrences "(table-".toList (c :: rest) = occurrences "(table-".toList rest := by
  apply occurrences_of_not_prefix
  simp [List.isPrefixOf_cons_cons, Ne.symm h]

theorem tables_append (h : '(' ∉ front) :
    occurrences "(table-".toList (front ++ rest) = occurrences "(table-".toList rest := by
  induction front with
  | nil => rfl
  | cons c front ih =>
    rw [List.mem_cons, not_or] at h
    rw [List.cons_append, tables_cons (Ne.symm h.1), ih h.2]

theorem tables_open (h : c ≠ 't') :
    occurrences "(table-".toList ('(' :: c :: rest) =
      occurrences "(table-".toList (c :: rest) := by
  apply occurrences_of_not_prefix
  simp [List.isPrefixOf_cons_cons, Ne.symm h]

theorem tables_head :
    occurrences "(table-".toList ("(table-".toList ++ rest) =
      1 + occurrences "(table-".toList rest := by
  have first : ("(table-".toList).isPrefixOf ('(' :: ("table-".toList ++ rest)) = true :=
    List.isPrefixOf_iff_prefix.2 (List.prefix_append "(table-".toList rest)
  have shape : "(table-".toList ++ rest = '(' :: ("table-".toList ++ rest) := rfl
  rw [shape, occurrences, first, tables_append (by decide)]
  rfl

end Occurrences

namespace Symbolic

variable {rest : List Char} {parts : List Nest} {opened : List (String × List Nest)}

theorem scan_decimal (n : Nat) :
    scan ((decimal n).toList ++ rest) parts opened = scan rest parts opened :=
  scan_append (not_mem_decimal (by decide)) (not_mem_decimal (by decide))

theorem scan_hexadecimal (n : Nat) :
    scan ((hexadecimal n).toList ++ rest) parts opened = scan rest parts opened :=
  scan_append (not_mem_hexadecimal (by decide)) (not_mem_hexadecimal (by decide))

theorem scan_spaces (depth : Nat) :
    scan (List.replicate depth ' ' ++ rest) parts opened = scan rest parts opened :=
  scan_append (fun h => absurd (List.eq_of_mem_replicate h) (by decide))
    fun h => absurd (List.eq_of_mem_replicate h) (by decide)

theorem scan_entry (e : Entry) : scan (entryText e ++ rest) parts opened =
    scan rest (.group (decimal e.offset.toNat) [] :: parts) opened := by
  rw [entryText_append, scan_cons (by decide) (by decide), scan_open (not_mem_decimal (by decide)),
    scan_decimal, scan_cons (by decide) (by decide), scan_decimal, scan_close,
    String.ofList_toList]
  rfl

theorem scan_entries (es : List Entry) : scan (es.flatMap entryText ++ rest) parts opened =
    scan rest ((es.map fun e => .group (decimal e.offset.toNat) []).reverse ++ parts) opened := by
  induction es generalizing parts with
  | nil => rfl
  | cons e es ih =>
    rw [List.flatMap_cons, List.append_assoc, scan_entry, ih, List.map_cons, List.reverse_cons,
      List.append_assoc]
    rfl

theorem not_mem_head {t : FlatTable} {c : Char} (hd : Radix.decimal.isDigit c = false)
    (hword : c ∉ "table-".toList) : c ∉ t.head.toList := by
  have hdash : c ∉ "-".toList := by
    intro dash
    rw [List.mem_singleton.1 dash] at hword
    exact hword (by decide)
  simp only [FlatTable.head, String.toList_append, List.mem_append, not_or]
  exact ⟨⟨⟨hword, not_mem_decimal hd⟩, hdash⟩, not_mem_decimal hd⟩

/-- The text of a node is one group, wherever it stands. -/
theorem scan_plain (s : RangeStore) (depth : Nat) (tree : Decision) :
    scan ((plain s depth tree).toList ++ rest) parts opened =
      scan rest (tree.nest s :: parts) opened := by
  induction tree generalizing depth rest parts opened with
  | leaf t =>
    have head : ∀ text, "(table-".toList ++ ((decimal t.format.base.bits).toList ++ '-' ::
        ((decimal t.format.span.bits).toList ++ text)) = '(' :: (t.head.toList ++ text) := by
      intro text
      simp [FlatTable.head]
    rw [toList_leaf_append, scan_spaces, head, scan_open (not_mem_head (by decide) (by decide)),
      scan_append (not_mem_head (by decide) (by decide)) (not_mem_head (by decide) (by decide)),
      scan_cons (by decide) (by decide), scan_cons (by decide) (by decide),
      scan_cons (by decide) (by decide), scan_hexadecimal, scan_entries, scan_close,
      String.ofList_toList, List.append_nil, List.reverse_reverse]
    rfl
  | split pivot left right ihl ihr =>
    have head : ∀ text, "(split #x".toList ++ text =
        '(' :: ("split".toList ++ ' ' :: '#' :: 'x' :: text) := fun text => rfl
    rw [toList_split_append, scan_spaces, head, scan_open (by decide),
      scan_append (by decide) (by decide)]
    simp only [scan_cons (show ' ' ≠ '(' by decide) (by decide),
      scan_cons (show '#' ≠ '(' by decide) (by decide),
      scan_cons (show 'x' ≠ '(' by decide) (by decide),
      scan_cons (show ';' ≠ '(' by decide) (by decide),
      scan_cons (show '\n' ≠ '(' by decide) (by decide), scan_decimal, scan_hexadecimal]
    rw [ihl, scan_cons (by decide) (by decide), ihr, scan_close, String.ofList_toList]
    rfl

theorem tables_decimal (n : Nat) :
    occurrences "(table-".toList ((decimal n).toList ++ rest) =
      occurrences "(table-".toList rest :=
  tables_append (not_mem_decimal (by decide))

theorem tables_hexadecimal (n : Nat) :
    occurrences "(table-".toList ((hexadecimal n).toList ++ rest) =
      occurrences "(table-".toList rest :=
  tables_append (not_mem_hexadecimal (by decide))

theorem tables_spaces (depth : Nat) :
    occurrences "(table-".toList (List.replicate depth ' ' ++ rest) =
      occurrences "(table-".toList rest :=
  tables_append fun h => absurd (List.eq_of_mem_replicate h) (by decide)

/-- A numeral does not begin as the word of a table does. -/
theorem tables_open_decimal (n : Nat) :
    occurrences "(table-".toList ('(' :: ((decimal n).toList ++ rest)) =
      occurrences "(table-".toList rest := by
  have digit : 't' ∉ (decimal n).toList := not_mem_decimal (by decide)
  obtain ⟨d, digits, written⟩ : ∃ d digits, (decimal n).toList = d :: digits := by
    rw [decimal, String.toList_ofList]
    exact List.exists_cons_of_ne_nil (Radix.decimal.write_ne_nil n)
  rw [written, List.mem_cons, not_or] at digit
  rw [written, List.cons_append, tables_open (Ne.symm digit.1), ← List.cons_append, ← written,
    tables_decimal]

theorem tables_entries (es : List Entry) :
    occurrences "(table-".toList (es.flatMap entryText ++ rest) =
      occurrences "(table-".toList rest := by
  induction es with
  | nil => rfl
  | cons e es ih =>
    rw [List.flatMap_cons, List.append_assoc, entryText_append, tables_cons (by decide),
      tables_open_decimal, tables_cons (by decide), tables_decimal, tables_cons (by decide), ih]

/-- The text of a node has the word of a table once for each of its leaves. -/
theorem tables_plain (s : RangeStore) (depth : Nat) (tree : Decision) :
    occurrences "(table-".toList ((plain s depth tree).toList ++ rest) =
      tree.leaves.length + occurrences "(table-".toList rest := by
  induction tree generalizing depth rest with
  | leaf t =>
    rw [toList_leaf_append, tables_spaces, tables_head, tables_decimal, tables_cons (by decide),
      tables_decimal, tables_cons (by decide), tables_cons (by decide), tables_cons (by decide),
      tables_hexadecimal, tables_entries, tables_cons (by decide), Decision.leaves_leaf]
    rfl
  | split pivot left right ihl ihr =>
    have head : ∀ text, "(split #x".toList ++ text =
        '(' :: 's' :: ("plit #x".toList ++ text) := fun text => rfl
    rw [toList_split_append, tables_spaces, head, tables_open (by decide), tables_cons (by decide),
      tables_append (by decide)]
    simp only [tables_cons (show ' ' ≠ '(' by decide), tables_cons (show ';' ≠ '(' by decide),
      tables_cons (show '\n' ≠ '(' by decide), tables_decimal, tables_hexadecimal]
    rw [ihl, tables_cons (by decide), ihr, tables_cons (by decide), Decision.leaves_split,
      List.length_append, Nat.add_assoc]

end Symbolic

/-- The parentheses that a table gathers are those of the splits that end with it: the listing is
the plain one, in which every node closes its own, and a line feed. So its parentheses are balanced,
its groups are nested as the tree is, and it has as many tables as the tree has leaves. -/
theorem symbolic_nesting (s : RangeStore) (tree : Decision) :
    symbolic s tree = Symbolic.plain s 0 tree ++ "\n" ∧
      Balanced (symbolic s tree).toList ∧
      nesting? (symbolic s tree).toList = some [tree.nest s] ∧
      occurrences "(table-".toList (symbolic s tree).toList = tree.leaves.length := by
  have whole : nesting? (symbolic s tree).toList = some [tree.nest s] := by
    rw [nesting?, Symbolic.toList_symbolic, Symbolic.scan_plain]
    rfl
  refine ⟨?_, balanced_of_nesting? whole, whole, ?_⟩
  · rw [symbolic, Symbolic.node_eq_plain]
    simp [Symbolic.closers]
  · rw [Symbolic.toList_symbolic, Symbolic.tables_plain]
    rfl

end Listing

end RangeLookup
