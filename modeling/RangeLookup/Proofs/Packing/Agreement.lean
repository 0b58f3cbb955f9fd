import RangeLookup.Listing.Assembly.Assembler
import RangeLookup.Packing.Stepwise
import RangeLookup.Proofs.Listing.Operand
import RangeLookup.Proofs.Packing.Bijection

/-!
# Bytes and directives agree

The two ways in which a layout writes an entry agree. Both ask first whether the entry fits, and
what refuses it is the same for both (`check_eq_error_iff`). The text of a directive assembles to
what the directive stands for, as long as its operands fit their unit (`Listing.assemble?_text`),
and those of an entry that fits do (`operands_fit`).
-/

namespace RangeLookup

namespace Entry

variable {e : Entry} {f : Format} {reason : Error}

theorem check_eq_error_iff : e.check f = .error reason ↔ e.Offends f reason := by
  unfold check
  constructor
  · intro h
    split at h
    · next refused =>
      cases h
      rw [Bool.not_eq_true', ← Bool.not_eq_true, Width.holds_iff, Nat.not_lt] at refused
      exact .offset refused
    · next offset =>
      rw [Bool.not_eq_true', Bool.not_eq_false, Width.holds_iff] at offset
      split at h
      · next refused =>
        cases h
        rw [Bool.not_eq_true', ← Bool.not_eq_true, Width.holds_iff, Nat.not_lt] at refused
        exact .span offset refused
      · cases h
  · rintro (tooGreat | ⟨fits, tooGreat⟩)
    · have refused : f.base.holds e.offset = false := by
        rw [← Bool.not_eq_true, Width.holds_iff]
        exact Nat.not_lt.2 tooGreat
      simp [refused]
    · have held : f.base.holds e.offset = true := Width.holds_iff.2 fits
      have refused : f.span.holds e.span = false := by
        rw [← Bool.not_eq_true, Width.holds_iff]
        exact Nat.not_lt.2 tooGreat
      simp [held, refused]

/-- An entry fits, or something is wrong with it. -/
theorem fits_or_offends (e : Entry) (f : Format) : e.Fits f ∨ ∃ reason, e.Offends f reason := by
  cases checked : e.check f with
  | ok _ => exact .inl (check_eq_ok_iff.1 checked)
  | error reason => exact .inr ⟨reason, check_eq_error_iff.1 checked⟩

end Entry

namespace Listing

theorem mapM_bytesOf? {unit : DataUnit} {operands : List Nat}
    (fit : ∀ n ∈ operands, n < Nat.pow 256 unit.size) :
    operands.mapM unit.bytesOf? = some (operands.map (littleEndian unit.size)) :=
  mapM_eq_some fun n hn => if_pos (fit n hn)

/-- The text of a directive assembles to the bytes that the directive stands for. -/
theorem assemble?_text {d : Directive} (filled : d.operands ≠ [])
    (fit : ∀ n ∈ d.operands, n < Nat.pow 256 d.unit.size) :
    assemble? d.text.toList = some d.assemble := by
  have text_eq : d.text.toList = d.unit.mnemonic.toList ++ ' ' ::
      (String.intercalate ", " (d.operands.map (Directive.operandText d.digits))).toList := by
    rw [Directive.text, String.toList_append, String.toList_append, List.append_assoc]
    rfl
  have solid : ∀ c ∈ d.unit.mnemonic.toList, (c != ' ') = true := by
    cases d.unit <;> simp [DataUnit.mnemonic]
  have mnemonic : d.text.toList.takeWhile (· != ' ') = d.unit.mnemonic.toList := by
    rw [text_eq, List.takeWhile_append_of_pos solid]
    exact List.append_nil _
  have behind : operands? (d.text.toList.dropWhile (· != ' ')) = some d.operands := by
    rw [text_eq, List.dropWhile_append_of_pos solid]
    exact operands?_text d.digits filled
  simp only [assemble?, mnemonic, behind, DataUnit.ofMnemonic?_mnemonic, mapM_bytesOf? fit,
    Option.bind_eq_bind, Option.bind_some, Option.pure_def]
  rw [Directive.assemble, List.flatMap_def]

end Listing

namespace Layout

variable {l : Layout} {e : Entry} {reason : Error}

/-- No operand of an entry that fits is too great for its unit. -/
theorem operands_fit (h : e.Fits l.format) :
    ∀ n ∈ (l.directiveOf e).operands, n < Nat.pow 256 (l.directiveOf e).unit.size := by
  obtain ⟨offset, span⟩ := h
  rw [Width.holds_iff] at offset span
  rcases l with unit | _ | _
  · rw [(values_uniform unit).1] at offset
    rw [(values_uniform unit).2] at span
    exact List.forall_mem_cons.2 ⟨offset, List.forall_mem_singleton.2 span⟩
  · intro n hn
    obtain ⟨b, -, rfl⟩ := List.mem_map.1 hn
    exact b.toNat_lt
  · have offset : e.offset.toNat < 1024 := offset
    have span : e.span.toNat < 64 := span
    intro n hn
    rw [List.mem_singleton.1 hn]
    show e.offset.toNat + 1024 * e.span.toNat < 65536
    omega

theorem directive_eq_error_iff : l.directive e = .error reason ↔ e.Offends l.format reason := by
  rw [← Entry.check_eq_error_iff]
  unfold directive
  cases e.check l.format with
  | error other => simp [bind, Except.bind]
  | ok _ => cases l <;> simp [bind, Except.bind, pure, Except.pure]

theorem append_eq_error_iff {buffer : Bytes} :
    l.append buffer e = .error reason ↔ e.Offends l.format reason := by
  rw [← Entry.check_eq_error_iff, append, encode]
  cases e.check l.format with
  | error other => simp [bind, Except.bind, Except.map]
  | ok _ => simp [bind, Except.bind, pure, Except.pure, Except.map]

/-- An entry that fits its format is written by both: the text of its directive assembles to the bytes
that go to the end of a buffer. Any other entry is refused by both, and for the same reason, which is
the offset if that does not fit and the span only if the offset does. -/
theorem directive_assembles {f : Format} (hl : ofFormat f = .ok l) (e : Entry) :
    (e.Fits f ∧ e.check f = .ok () ∧ ∃ d bytes, l.directive e = .ok d ∧
        Listing.assemble? d.text.toList = some bytes ∧
        ∀ buffer, l.append buffer e = .ok (buffer ++ bytes)) ∨
      ∃ reason, e.Offends f reason ∧ e.check f = .error reason ∧ l.directive e = .error reason ∧
        ∀ buffer, l.append buffer e = .error reason := by
  obtain rfl := ofFormat_eq_ok_iff.1 hl
  rcases e.fits_or_offends l.format with fits | ⟨reason, offends⟩
  · have text := Listing.assemble?_text (l.operands_directiveOf_ne_nil e) (operands_fit fits)
    rw [assemble_directiveOf] at text
    exact .inl ⟨fits, Entry.check_eq_ok_iff.2 fits, l.directiveOf e, l.bytesOf e,
      directive_eq_ok_iff.2 ⟨fits, rfl⟩, text, fun buffer => append_eq_ok_iff.2 ⟨fits, rfl⟩⟩
  · exact .inr ⟨reason, offends, Entry.check_eq_error_iff.2 offends,
      directive_eq_error_iff.2 offends, fun buffer => append_eq_error_iff.2 offends⟩

theorem directive_assembles_twelve :
    ofFormat twelve.format = .ok twelve ∧
      (∃ d bytes, twelve.directive ⟨0xABC, 0x123⟩ = .ok d ∧
        Listing.assemble? d.text.toList = some bytes ∧
        twelve.append [0xFF] ⟨0xABC, 0x123⟩ = .ok ([0xFF] ++ bytes)) ∧
      ∃ reason, Entry.Offends ⟨0x1000, 0x1000⟩ twelve.format reason ∧
        twelve.directive ⟨0x1000, 0x1000⟩ = .error reason ∧
        twelve.append [0xFF] ⟨0x1000, 0x1000⟩ = .error reason := by
  have layout : ofFormat twelve.format = .ok twelve := ofFormat_eq_ok_iff.2 rfl
  refine ⟨layout, ?_, ?_⟩
  · rcases directive_assembles layout ⟨0xABC, 0x123⟩ with
      ⟨-, -, d, bytes, written, text, appended⟩ | ⟨reason, offends, -⟩
    · exact ⟨d, bytes, written, text, appended [0xFF]⟩
    · have fits : Entry.check ⟨0xABC, 0x123⟩ twelve.format = .ok () := by decide
      cases fits.symm.trans (Entry.check_eq_error_iff.2 offends)
  · rcases directive_assembles layout ⟨0x1000, 0x1000⟩ with
      ⟨fits, -⟩ | ⟨reason, offends, -, refused, kept⟩
    · exact absurd fits (by decide)
    · exact ⟨reason, offends, refused, kept [0xFF]⟩

end Layout

end RangeLookup
