import RangeLookup.Proofs.Listing.Operand

/-!
# Lines read back

The texts that forms begin with are prefix-free (`Apart`), so a line is read in the form that it was
written in and in no other (`readForms?_of_reads`). Lines that carry the name of the listing at
their front are read from the back; every other line ends with a digit or with a digit and a colon,
and no ending of a section line does (`EndsPlainly.readForms?_eq_none`). That is why the name may
hold anything but a line feed.

A listing of legible lines is read back line for line (`read?_textOf`), but for the padding of data
operands.
-/

namespace RangeLookup

/-- The directive with its operands written in their fewest digits. -/
def Directive.unpadded (d : Directive) : Directive := { d with digits := 1 }

namespace Listing

/-- Neither text begins the other. -/
def Apart (a b : List Char) : Prop := ¬ a <+: b ∧ ¬ b <+: a

instance (a b : List Char) : Decidable (Apart a b) := inferInstanceAs (Decidable (_ ∧ _))

theorem Apart.isPrefixOf?_eq_none {lead other : List Char} (h : Apart lead other)
    (rest : List Char) : lead.isPrefixOf? (other ++ rest) = none := by
  cases found : lead.isPrefixOf? (other ++ rest) with
  | none => rfl
  | some behind =>
    have begins : lead <+: other ++ rest :=
      ⟨behind, List.isPrefixOf?_eq_some_iff_append_eq.1 found⟩
    rcases List.prefix_or_prefix_of_prefix begins (List.prefix_append other rest) with hp | hp
    · exact absurd hp h.1
    · exact absurd hp h.2

/-- The text is written in the form and says the line. -/
def Form.Reads (form : Form) (text : List Char) (line : Line) : Prop :=
  ∃ rest, text = form.lead ++ rest ∧ form.read? rest = some line

section

variable {α : Type} {lead : String} {read? : List Char → Option α} {line : α → Line}
  {text rest : List Char} {a : α}

theorem Form.beginning_reads (ht : text = lead.toList ++ rest) (h : read? rest = some a) :
    (beginning lead read? line).Reads text (line a) := by
  refine ⟨rest, ht, ?_⟩
  show (read? rest).map line = _
  rw [h, Option.map_some]

theorem Form.ending_reads (ht : text = rest ++ lead.toList) (h : read? rest = some a) :
    (ending lead read? line).Reads text.reverse (line a) := by
  refine ⟨rest.reverse, by rw [ht, List.reverse_append]; rfl, ?_⟩
  show (read? rest.reverse.reverse).map line = _
  rw [List.reverse_reverse, h, Option.map_some]

end

section Forms

variable {forms : List Form} {form : Form} {text : List Char} {line : Line}

/-- Among forms whose beginnings are prefix-free, a text is read in the form it is written in. -/
theorem readForms?_of_reads (apart : (forms.map Form.lead).Pairwise Apart) (hm : form ∈ forms)
    (h : form.Reads text line) : readForms? forms text = some line := by
  obtain ⟨rest, rfl, hr⟩ := h
  unfold readForms?
  induction forms with
  | nil => cases hm
  | cons head forms ih =>
    rw [List.map_cons, List.pairwise_cons] at apart
    rw [List.findSome?_cons]
    rcases List.mem_cons.1 hm with rfl | hm
    · rw [isPrefixOf?_append, Option.bind_some, hr]
    · rw [(apart.1 _ (List.mem_map_of_mem hm)).isPrefixOf?_eq_none]
      exact ih apart.2 hm

/-- A text that begins like no form is read in none. -/
theorem readForms?_eq_none {front rest : List Char}
    (apart : ∀ form ∈ forms, Apart form.lead front) : readForms? forms (front ++ rest) = none := by
  rw [readForms?, List.findSome?_eq_none_iff]
  intro form hm
  rw [(apart form hm).isPrefixOf?_eq_none, Option.bind_none]

end Forms

theorem sectionForms_apart : (sectionForms.map Form.lead).Pairwise Apart := by decide +kernel

theorem plainForms_apart : (plainForms.map Form.lead).Pairwise Apart := by decide +kernel

/-- The text ends with a digit, or with a digit and a colon. -/
def EndsPlainly (text : List Char) : Prop :=
  ∃ d < 16, [Radix.digitChar d] <:+ text ∨ [Radix.digitChar d, ':'] <:+ text

namespace EndsPlainly

variable {text : List Char}

theorem append_left (h : EndsPlainly text) (front : List Char) : EndsPlainly (front ++ text) := by
  obtain ⟨d, hd, ends | ends⟩ := h
  · exact ⟨d, hd, .inl (ends.trans (List.suffix_append front text))⟩
  · exact ⟨d, hd, .inr (ends.trans (List.suffix_append front text))⟩

theorem sectionForms_apart_digit : ∀ form ∈ sectionForms, ∀ d < 16,
    Apart form.lead [Radix.digitChar d] ∧ Apart form.lead [':', Radix.digitChar d] := by
  decide +kernel

/-- Such a text is no line with the name of the listing at its front. -/
theorem readForms?_eq_none (h : EndsPlainly text) : readForms? sectionForms text.reverse = none := by
  obtain ⟨d, hd, ⟨front, rfl⟩ | ⟨front, rfl⟩⟩ := h
  · rw [List.reverse_append]
    exact Listing.readForms?_eq_none fun form hm => (sectionForms_apart_digit form hm d hd).1
  · rw [List.reverse_append]
    exact Listing.readForms?_eq_none fun form hm => (sectionForms_apart_digit form hm d hd).2

theorem of_write (r : Radix) (n : Nat) : EndsPlainly (r.write n) := by
  obtain ⟨front, d, hd, written⟩ := r.exists_write_eq_concat n
  rw [written]
  exact ⟨d, hd, .inl (List.suffix_append _ _)⟩

theorem of_decimal (n : Nat) : EndsPlainly (decimal n).toList := by
  rw [decimal, String.toList_ofList]
  exact of_write _ _

theorem of_hexadecimal (n : Nat) : EndsPlainly (hexadecimal n).toList := by
  rw [hexadecimal, String.toList_ofList]
  exact of_write _ _

theorem of_run (i j : Nat) :
    EndsPlainly ((decimal i).toList ++ '_' :: (decimal j).toList) := by
  rw [List.append_cons]
  exact (of_decimal j).append_left _

theorem of_run_colon (i j : Nat) : EndsPlainly
    ((decimal i).toList ++ '_' :: (decimal j).toList ++ [':']) := by
  obtain ⟨front, d, hd, written⟩ := Radix.decimal.exists_write_eq_concat j
  refine ⟨d, hd, .inr ⟨(decimal i).toList ++ '_' :: front, ?_⟩⟩
  rw [decimal, decimal, String.toList_ofList, String.toList_ofList, written]
  simp

theorem of_operands (digits : Nat) {operands : List Nat} (h : operands ≠ []) : EndsPlainly
    (' ' :: (String.intercalate ", " (operands.map (Directive.operandText digits))).toList) := by
  suffices EndsPlainly
      (String.intercalate ", " (operands.map (Directive.operandText digits))).toList from
    this.append_left [' ']
  induction operands with
  | nil => exact absurd rfl h
  | cons n rest ih =>
    by_cases hr : rest = []
    · rw [hr, List.map_singleton, String.intercalate_singleton, toList_operandText]
      exact ((of_write _ _).append_left _).append_left _
    · rw [List.map_cons, String.intercalate_cons_of_ne_nil (by simpa using hr),
        String.toList_append]
      exact (ih hr).append_left _

end EndsPlainly

namespace Line

/-- What a listing keeps of a line: all but the padding of data operands. -/
def unpadded : Line → Line
  | data directive => data directive.unpadded
  | line => line

/-- The line can be told from what is written: a name stays within its line, and data have an
operand. -/
def Legible : Line → Prop
  | opening name _ | closing name _ | sectionLabel name _ | loadTable name _ _ => '\n' ∉ name.toList
  | data directive => directive.operands ≠ []
  | _ => True

section

variable {α : Type} {lead : String} {form? : List Char → Option α} {line : α → Line}
  {text rest : List Char} {a : α} {said : Line}

theorem read?_of_ending (hm : Form.ending lead form? line ∈ sectionForms)
    (h : form? rest = some a) (hs : line a = said) (ht : text = rest ++ lead.toList) :
    read? text = some said := by
  subst hs
  rw [read?, readForms?_of_reads sectionForms_apart hm (Form.ending_reads ht h), Option.some_or]

theorem read?_of_beginning (hm : Form.beginning lead form? line ∈ plainForms)
    (h : form? rest = some a) (hs : line a = said) (ends : EndsPlainly rest)
    (ht : text = lead.toList ++ rest) : read? text = some said := by
  subst hs
  have plain : EndsPlainly text := by
    rw [ht]
    exact ends.append_left _
  rw [read?, plain.readForms?_eq_none, Option.none_or,
    readForms?_of_reads plainForms_apart hm (Form.beginning_reads ht h)]

end

/-- A legible line is read as what it was written for. -/
theorem read?_text {line : Line} (h : line.Legible) :
    read? line.text.toList = some line.unpadded := by
  cases line with
  | opening name part =>
    have mem : openingForm part ∈ sectionForms := by cases part <;> simp [sectionForms]
    refine read?_of_ending mem (remarkName?_text name) rfl ?_
    unfold text
    simp
  | closing name part =>
    have mem : closingForm part ∈ sectionForms := by cases part <;> simp [sectionForms]
    refine read?_of_ending mem (remarkName?_text name) rfl ?_
    unfold text
    simp
  | sectionLabel name part =>
    have mem : sectionLabelForm part ∈ sectionForms := by cases part <;> simp [sectionForms]
    refine read?_of_ending mem (congrArg some (String.ofList_toList (s := name))) rfl ?_
    unfold text
    simp
  | align =>
    have mem : alignForm ∈ plainForms := by unfold plainForms; simp
    exact read?_of_beginning mem (if_pos rfl) rfl ⟨4, by decide, .inl (by decide)⟩ rfl
  | tableLabel first last =>
    have mem : tableLabelForm ∈ plainForms := by unfold plainForms; simp
    refine read?_of_beginning mem (labelRun?_decimal first last) rfl (.of_run_colon first last) ?_
    unfold text runLabel
    simp
  | data d =>
    have mem : dataForm d.unit ∈ plainForms := by unfold plainForms; cases d.unit <;> simp
    refine read?_of_beginning mem (operands?_text d.digits h) rfl (.of_operands d.digits h) ?_
    unfold text Directive.text
    simp
  | blockLabel first last =>
    have mem : blockLabelForm ∈ plainForms := by unfold plainForms; simp
    refine read?_of_beginning mem (labelRun?_decimal first last) rfl (.of_run_colon first last) ?_
    unfold text runLabel
    simp
  | compare bound =>
    have mem : compareForm ∈ plainForms := by unfold plainForms; simp
    refine read?_of_beginning mem (word?_hexadecimal bound) rfl (.of_hexadecimal _) ?_
    unfold text markedHex
    simp
  | branch first last =>
    have mem : branchForm ∈ plainForms := by unfold plainForms; simp
    refine read?_of_beginning mem (pair?_decimal first last) rfl (.of_run first last) ?_
    unfold text runLabel
    simp
  | rebase base =>
    have mem : rebaseForm ∈ plainForms := by unfold plainForms; simp
    refine read?_of_beginning mem (word?_hexadecimal base) rfl (.of_hexadecimal _) ?_
    unfold text markedHex
    simp
  | loadTable name first last =>
    have mem : loadTableForm ∈ plainForms := by unfold plainForms; simp
    refine read?_of_beginning mem (address?_text name first last) rfl
      (.append_left (.of_run first last) _) ?_
    unfold text runLabel
    simp
  | loadCount count =>
    have mem : loadCountForm ∈ plainForms := by unfold plainForms; simp
    refine read?_of_beginning mem (read?_decimal count) rfl (.of_decimal count) ?_
    unfold text
    simp
  | search format =>
    have mem : searchForm ∈ plainForms := by unfold plainForms; simp
    refine read?_of_beginning mem (format?_decimal format) rfl (.of_run _ _) ?_
    unfold text
    simp

theorem not_mem_operands (digits : Nat) (operands : List Nat) : '\n' ∉
    (String.intercalate ", " (operands.map (Directive.operandText digits))).toList := by
  induction operands with
  | nil => simp
  | cons n rest ih =>
    have operand : '\n' ∉ (Directive.operandText digits n).toList :=
      not_mem_operandText (by decide) (by decide)
    by_cases hr : rest = []
    · simpa [hr] using operand
    · rw [List.map_cons, String.intercalate_cons_of_ne_nil (by simpa using hr),
        String.toList_append, String.toList_append, List.mem_append, List.mem_append, not_or, not_or]
      exact ⟨⟨operand, by decide⟩, ih⟩

/-- A legible line holds no line feed. -/
theorem not_mem_text {line : Line} (h : line.Legible) : '\n' ∉ line.text.toList := by
  have dec : ∀ n, '\n' ∉ (decimal n).toList := fun n => not_mem_decimal (by decide)
  have hex : ∀ n, '\n' ∉ (hexadecimal n).toList := fun n => not_mem_hexadecimal (by decide)
  cases line with
  | opening name part | closing name part | sectionLabel name part =>
    have named : '\n' ∉ name.toList := h
    unfold text
    cases part <;> simp [Section.text, named]
  | loadTable name first last =>
    have named : '\n' ∉ name.toList := h
    unfold text runLabel
    simp [dec, named]
  | align => decide
  | tableLabel first last | blockLabel first last | branch first last =>
    unfold text runLabel
    simp [dec]
  | data d =>
    have mnemonic : '\n' ∉ d.unit.mnemonic.toList := by cases d.unit <;> decide
    unfold text Directive.text
    simp only [String.toList_append, List.mem_append, not_or]
    exact ⟨by decide, ⟨mnemonic, by decide⟩, not_mem_operands d.digits d.operands⟩
  | compare v | rebase v =>
    unfold text markedHex
    simp [hex]
  | loadCount count | search format =>
    unfold text
    simp [dec]

end Line

theorem splitOn_textOf {lines : List Line} (h : ∀ line ∈ lines, line.Legible) :
    (textOf lines).toList.splitOn '\n' = lines.map (fun line => line.text.toList) ++ [[]] := by
  induction lines with
  | nil => rfl
  | cons line rest ih =>
    rw [List.forall_mem_cons] at h
    have first : (textOf (line :: rest)).toList =
        line.text.toList ++ '\n' :: (textOf rest).toList := by
      simp [textOf]
    rw [first, List.splitOn_append_cons_self_of_not_mem (Line.not_mem_text h.1), ih h.2]
    rfl

/-- A listing of legible lines says what each of its lines says. -/
theorem read?_textOf {lines : List Line} (h : ∀ line ∈ lines, line.Legible) :
    read? (textOf lines) = some (lines.map Line.unpadded) := by
  rw [read?, splitOn_textOf h, List.dropLast_concat, List.mapM_map]
  exact mapM_eq_some fun line hl => Line.read?_text (h line hl)

end Listing

end RangeLookup
