import RangeLookup.Packing.Stepwise
import RangeLookup.Proofs.Packing.Agreement

/-!
# Writing and reading entry by entry

A write that is refused has not come to the buffer yet (`write_run`), so by induction the buffer
holds the entries that were accepted, behind what was in it (`inTurn_write`).

A read is decided by how many bytes are left on the tape (`read_of_enough`, `read_of_short`). Where
they are too few, some of them may be used all the same, when the data stop between the two parts of
an entry; but then even fewer are left. So a tape on which a read has failed stays too short
(`inTurn_read_of_short`), and the entries of a run are read in order before that
(`inTurn_read_flatMap`).
-/

namespace RangeLookup

section Turns

variable {ε σ α : Type} {op : EStateM ε σ α} {rest front back : List (EStateM ε σ α)}
  {state left : σ} {a : α} {reason : ε}

theorem inTurn_cons_of_ok (h : op.run state = .ok a left) :
    inTurn (op :: rest) state = (.ok a :: (inTurn rest left).1, (inTurn rest left).2) := by
  rw [inTurn, h]

theorem inTurn_cons_of_error (h : op.run state = .error reason left) :
    inTurn (op :: rest) state = (.error reason :: (inTurn rest left).1, (inTurn rest left).2) := by
  rw [inTurn, h]

end Turns

namespace Layout

variable {l : Layout} {e : Entry} {reason : Error} {buffer : Bytes}

/-- An entry is written as a whole or not at all, as it is appended. -/
theorem write_run (l : Layout) (e : Entry) (buffer : Bytes) : (l.write e).run buffer =
    match l.append buffer e with
    | .ok longer => .ok () longer
    | .error reason => .error reason buffer := by
  unfold write append encode
  cases e.check l.format with
  | error reason => rfl
  | ok _ =>
    rcases l with unit | _ | _
    · show EStateM.Result.ok () (buffer ++ _ ++ _) = .ok () (buffer ++ (_ ++ _))
      rw [List.append_assoc]
    · rfl
    · rfl

theorem write_of_fits (fits : e.Fits l.format) :
    (l.write e).run buffer = .ok () (buffer ++ l.bytesOf e) := by
  rw [write_run, append_eq_ok_iff.2 ⟨fits, rfl⟩]

theorem write_of_offends (offends : e.Offends l.format reason) :
    (l.write e).run buffer = .error reason buffer := by
  rw [write_run, append_eq_error_iff.2 offends]

theorem inTurn_write (l : Layout) (buffer : Bytes) (entries : List Entry) :
    inTurn (entries.map l.write) buffer = (entries.map fun e => e.check l.format,
      buffer ++ (l.format.accepted entries).flatMap l.bytesOf) := by
  induction entries generalizing buffer with
  | nil => simp [inTurn, Format.accepted]
  | cons e rest ih =>
    rw [List.map_cons, List.map_cons, Format.accepted, List.filter_cons]
    rcases e.fits_or_offends l.format with fits | ⟨reason, offends⟩
    · rw [inTurn_cons_of_ok (write_of_fits fits), ih, Entry.check_eq_ok_iff.2 fits,
        if_pos (decide_eq_true fits), List.flatMap_cons, List.append_assoc]
      rfl
    · have refused : ¬ e.Fits l.format := fun fits => by
        cases (Entry.check_eq_ok_iff.2 fits).symm.trans (Entry.check_eq_error_iff.2 offends)
      rw [inTurn_cons_of_error (write_of_offends offends), ih,
        Entry.check_eq_error_iff.2 offends, if_neg (by simpa using refused)]
      rfl

end Layout

section Tapes

variable {take : Nat → EStateM Error Tape Bytes} {t : Tape} {size : Nat} {l : Layout}

theorem Tape.left_advance (t : Tape) (size : Nat) :
    ({ t with position := t.position + size } : Tape).left = t.left.drop size := by
  rw [left, left, List.drop_drop]

theorem Tape.length_left (t : Tape) : t.left.length = t.data.length - t.position := List.length_drop

/-- Where a read stops short, no more bytes are left than before. -/
theorem Tape.length_left_le {place : Nat} (h : place = t.position ∨ place = t.data.length) :
    ({ t with position := place } : Tape).left.length ≤ t.left.length := by
  rw [length_left, length_left]
  show t.data.length - place ≤ _
  omega

namespace TakesExactly

theorem number_of_enough (h : TakesExactly take) (enough : size ≤ t.left.length) :
    (Tape.number take size).run t =
      .ok (ofLittleEndian (t.left.take size)) { t with position := t.position + size } := by
  have taken := h.enough enough
  unfold Tape.number
  rw [EStateM.run_bind, taken]
  rfl

theorem number_of_short (h : TakesExactly take) (short : t.left.length < size) :
    ∃ place, (place = t.position ∨ place = t.data.length) ∧ (Tape.number take size).run t =
      .error .unexpectedEndOfData { t with position := place } := by
  obtain ⟨place, stops, failed⟩ := h.short short
  refine ⟨place, stops, ?_⟩
  unfold Tape.number
  rw [EStateM.run_bind, failed]

end TakesExactly

theorem Tape.takesExactly_take (stays : Bool) : TakesExactly (Tape.take stays) where
  enough {size t} enough := by
    unfold Tape.take
    simp only [EStateM.run_bind, EStateM.run_get, if_pos enough]
    rfl
  short {size t} short := by
    have few := Nat.not_le.2 short
    refine ⟨if stays then t.position else t.data.length, by cases stays <;> simp, ?_⟩
    unfold Tape.take
    simp only [EStateM.run_bind, EStateM.run_get, if_neg few]
    cases stays <;> rfl

namespace Layout

/-- An entry is read where its bytes are left, and nothing else is used. -/
theorem read_of_enough (h : TakesExactly take) (enough : l.format.entrySize ≤ t.left.length) :
    ∃ e, l.decode? t.left = some (e, t.left.drop l.format.entrySize) ∧
      (l.read take).run t = .ok e { t with position := t.position + l.format.entrySize } := by
  rcases l with unit | _ | _
  · have size := entrySize_uniform unit
    have behind : ({ t with position := t.position + unit.size } : Tape).left =
      t.left.drop unit.size := t.left_advance unit.size
    have first := h.number_of_enough (show unit.size ≤ t.left.length by omega)
    have second := h.number_of_enough (t := { t with position := t.position + unit.size })
      (show unit.size ≤ _ by rw [behind, List.length_drop]; omega)
    refine ⟨⟨UInt32.ofNat (ofLittleEndian (t.left.take unit.size)),
      UInt32.ofNat (ofLittleEndian ((t.left.drop unit.size).take unit.size))⟩, ?_, ?_⟩
    · rw [decode?, takeNumber?_of_le (by omega)]
      simp only [Option.bind_eq_bind, Option.bind_some]
      rw [takeNumber?_of_le (by rw [List.length_drop]; omega), size, ← List.drop_drop]
      rfl
    · unfold read
      simp only [EStateM.run_bind, first, second, behind, size, ← Nat.add_assoc]
      rfl
  · have long : 3 ≤ t.left.length := enough
    have taken := h.enough long
    generalize t.left = bytes at long taken ⊢
    rcases bytes with _ | ⟨lowOffset, _ | ⟨lowSpan, _ | ⟨high, rest⟩⟩⟩
    · simp at long
    · simp at long
    · simp at long
    · refine ⟨_, rfl, ?_⟩
      unfold read
      simp only [EStateM.run_bind, taken]
      rfl
  · have long : 2 ≤ t.left.length := enough
    have word := h.number_of_enough long
    refine ⟨⟨UInt32.ofNat (ofLittleEndian (t.left.take 2) % 1024),
      UInt32.ofNat (ofLittleEndian (t.left.take 2) / 1024)⟩, ?_, ?_⟩
    · rw [decode?, takeNumber?_of_le long]
      rfl
    · unfold read
      simp only [EStateM.run_bind, word]
      rfl

/-- Where less than an entry is left, no entry is read, and still less than an entry is left. -/
theorem read_of_short (h : TakesExactly take) (short : t.left.length < l.format.entrySize) :
    ∃ place, ({ t with position := place } : Tape).left.length < l.format.entrySize ∧
      (l.read take).run t = .error .unexpectedEndOfData { t with position := place } := by
  rcases l with unit | _ | _
  · have size := entrySize_uniform unit
    by_cases half : unit.size ≤ t.left.length
    · -- the data stop in the second part, after the first has been used
      have behind : ({ t with position := t.position + unit.size } : Tape).left =
        t.left.drop unit.size := t.left_advance unit.size
      have first := h.number_of_enough half
      have less : (t.left.drop unit.size).length < unit.size := by rw [List.length_drop]; omega
      rw [← behind] at less
      obtain ⟨place, stops, second⟩ := h.number_of_short less
      have left := Tape.length_left_le stops
      refine ⟨place, ?_, ?_⟩
      · calc (Tape.left ⟨t.data, place⟩).length
          _ ≤ _ := left
          _ < unit.size := less
          _ ≤ _ := by omega
      · unfold read
        simp only [EStateM.run_bind, first, second]
    · obtain ⟨place, stops, failed⟩ := h.number_of_short (Nat.lt_of_not_le half)
      refine ⟨place, Nat.lt_of_le_of_lt (Tape.length_left_le stops) short, ?_⟩
      unfold read
      simp only [EStateM.run_bind, failed]
  · obtain ⟨place, stops, failed⟩ := h.short short
    refine ⟨place, Nat.lt_of_le_of_lt (Tape.length_left_le stops) short, ?_⟩
    unfold read
    have failed : (take 3).run t = _ := failed
    simp only [EStateM.run_bind, failed]
  · obtain ⟨place, stops, failed⟩ := h.number_of_short short
    refine ⟨place, Nat.lt_of_le_of_lt (Tape.length_left_le stops) short, ?_⟩
    unfold read
    have failed : (Tape.number take 2).run t = _ := failed
    simp only [EStateM.run_bind, failed]

/-- Once less than an entry is left, every read fails. -/
theorem inTurn_read_of_short (h : TakesExactly take) (short : t.left.length < l.format.entrySize)
    (k : Nat) : (inTurn (List.replicate k (l.read take)) t).1 =
      List.replicate k (.error .unexpectedEndOfData) := by
  induction k generalizing t with
  | zero => rfl
  | succ k ih =>
    obtain ⟨place, still, failed⟩ := read_of_short h short
    rw [List.replicate_succ, inTurn_cons_of_error failed, ih still, ← List.replicate_succ]

/-- The bytes of an entry are read as that entry. -/
theorem read_bytesOf {e : Entry} {rest : Bytes} (h : TakesExactly take) (fits : e.Fits l.format)
    (left : t.left = l.bytesOf e ++ rest) :
    ∃ next : Tape, next.left = rest ∧ (l.read take).run t = .ok e next := by
  have long : l.format.entrySize ≤ t.left.length := by
    rw [left, List.length_append, length_bytesOf]
    omega
  obtain ⟨e', decoded, read⟩ := read_of_enough h long
  -- what is decoded there is told by the round trip
  rw [left, decode?_bytesOf fits] at decoded
  injection decoded with decoded
  obtain ⟨rfl, behind⟩ := Prod.mk.inj decoded
  exact ⟨_, by rw [Tape.left_advance, left, ← behind], read⟩

/-- What is left are the bytes of entries: they are read in order, and then nothing is. -/
theorem inTurn_read_flatMap (h : TakesExactly take) (entries : List Entry)
    (fit : ∀ e ∈ entries, e.Fits l.format) (left : t.left = entries.flatMap l.bytesOf) (k : Nat) :
    (inTurn (List.replicate (entries.length + k) (l.read take)) t).1 =
      entries.map .ok ++ List.replicate k (.error .unexpectedEndOfData) := by
  induction entries generalizing t with
  | nil =>
    have short : t.left.length < l.format.entrySize := by
      rw [left]
      exact l.format.entrySize_pos
    rw [List.length_nil, Nat.zero_add, inTurn_read_of_short h short]
    rfl
  | cons e rest ih =>
    rw [List.forall_mem_cons] at fit
    obtain ⟨next, behind, read⟩ := read_bytesOf h fit.1 left
    rw [List.length_cons, Nat.add_right_comm, List.replicate_succ, inTurn_cons_of_ok read,
      ih fit.2 behind]
    rfl

/-- A layout that is used step by step loses nothing. An entry that does not fit is refused and the
buffer stays as it was, so that it holds in the end what was in it and the bytes of the entries that
were accepted, in order. An entry is read wherever as many bytes are left as one takes, and just
these are used; where fewer are left the read fails, and so does every later one. What was written is
therefore read back entry by entry, and then nothing is. -/
theorem stepwise_loses_nothing {f : Format} (hl : ofFormat f = .ok l) (h : TakesExactly take) :
    (∀ e buffer,
      (e.Fits f ∧ l.append buffer e = .ok (buffer ++ l.bytesOf e) ∧
        (l.write e).run buffer = .ok () (buffer ++ l.bytesOf e)) ∨
      ∃ reason, e.Offends f reason ∧ l.append buffer e = .error reason ∧
        (l.write e).run buffer = .error reason buffer) ∧
    (∀ buffer entries, inTurn (entries.map l.write) buffer =
      (entries.map fun e => e.check f, buffer ++ (f.accepted entries).flatMap l.bytesOf)) ∧
    (∀ t : Tape, f.entrySize ≤ t.data.length - t.position →
      ∃ e, (l.read take).run t = .ok e { t with position := t.position + f.entrySize } ∧
        (Cursor.next ⟨t.position, t.left⟩ l).1 = .ok e) ∧
    (∀ t : Tape, t.data.length - t.position < f.entrySize →
      ∃ place, (l.read take).run t = .error .unexpectedEndOfData { t with position := place } ∧
        (Cursor.next ⟨t.position, t.left⟩ l).1 = .error .unexpectedEndOfData ∧
        ∀ k, (inTurn (List.replicate k (l.read take)) { t with position := place }).1 =
          List.replicate k (.error .unexpectedEndOfData)) ∧
    ∀ buffer entries k, (inTurn (List.replicate ((f.accepted entries).length + k) (l.read take))
        ⟨(inTurn (entries.map l.write) buffer).2, buffer.length⟩).1 =
      (f.accepted entries).map .ok ++ List.replicate k (.error .unexpectedEndOfData) := by
  obtain rfl := ofFormat_eq_ok_iff.1 hl
  refine ⟨fun e buffer => ?_, inTurn_write l, fun t enough => ?_, fun t short => ?_,
    fun buffer entries k => ?_⟩
  · rcases e.fits_or_offends l.format with fits | ⟨reason, offends⟩
    · exact .inl ⟨fits, append_eq_ok_iff.2 ⟨fits, rfl⟩, write_of_fits fits⟩
    · exact .inr ⟨reason, offends, append_eq_error_iff.2 offends, write_of_offends offends⟩
  · rw [← Tape.length_left] at enough
    obtain ⟨e, decoded, read⟩ := read_of_enough h enough
    exact ⟨e, read, by rw [Cursor.next, decoded]⟩
  · rw [← Tape.length_left] at short
    obtain ⟨place, still, failed⟩ := read_of_short h short
    exact ⟨place, failed, by rw [Cursor.next, decode?_eq_none_iff.2 short],
      inTurn_read_of_short h still⟩
  · have left : (Tape.mk (buffer ++ (l.format.accepted entries).flatMap l.bytesOf)
      buffer.length).left = (l.format.accepted entries).flatMap l.bytesOf := List.drop_left
    rw [inTurn_write]
    refine inTurn_read_flatMap h _ (fun e accepted => ?_) left k
    exact of_decide_eq_true (List.mem_filter.1 accepted).2

theorem stepwise_loses_nothing_words :
    ofFormat .words = .ok (uniform .word) ∧ TakesExactly (Tape.take true) ∧
      inTurn ([⟨1, 2⟩, ⟨3, 0x10000⟩, ⟨5, 0xFFFF⟩].map (uniform .word).write) [0xAA] =
        ([.ok (), .error (.valueOutOfRange .span 0x10000 Format.words.span), .ok ()],
          [0xAA, 1, 0, 2, 0, 5, 0, 0xFF, 0xFF]) ∧
      (∃ place, ((uniform .word).read (Tape.take true)).run ⟨[0xAA, 1, 0, 2], 1⟩ =
        .error .unexpectedEndOfData ⟨[0xAA, 1, 0, 2], place⟩) ∧
      (inTurn (List.replicate 4 ((uniform .word).read (Tape.take true)))
        ⟨[0xAA, 1, 0, 2, 0, 5, 0, 0xFF, 0xFF], 1⟩).1 =
          [.ok ⟨1, 2⟩, .ok ⟨5, 0xFFFF⟩, .error .unexpectedEndOfData,
            .error .unexpectedEndOfData] := by
  have layout : ofFormat .words = .ok (uniform .word) := ofFormat_eq_ok_iff.2 rfl
  have exactly := Tape.takesExactly_take true
  obtain ⟨-, written, -, short, read⟩ := stepwise_loses_nothing layout exactly
  have written := written [0xAA] [⟨1, 2⟩, ⟨3, 0x10000⟩, ⟨5, 0xFFFF⟩]
  have read := read [0xAA] [⟨1, 2⟩, ⟨3, 0x10000⟩, ⟨5, 0xFFFF⟩] 2
  obtain ⟨place, failed, -⟩ := short ⟨[0xAA, 1, 0, 2], 1⟩ (by decide)
  rw [written] at read
  exact ⟨layout, exactly, written, ⟨place, failed⟩, read⟩

end Layout

end Tapes

end RangeLookup
