import RangeLookup.Proofs.Document.Ceiling
import RangeLookup.Proofs.RangeStore.OfList

/-!
# Why a document is refused

A line is refused for what it says, or because it starts below a line in front of it (`Refused`);
apart from that there is only the ceiling (`read_error_cases`). The store itself never refuses a
range: the ranges of an intake are canonical with the pending one at their end (`Intake.Follows`),
and that is all that a push asks for.

The invariant is about the lines in front. Each of them leaves the ranges canonical, the pending
range starts where one of them does, and there are no more ranges than lines. So the lines in front
of a refused one are read under every ceiling that has room for as many ranges, and what lies behind
it is not looked at.
-/

namespace RangeLookup

/-- The line that an error is about, if it is about one. -/
def Error.line? : Error → Option Nat
  | malformedInput line _ | invertedRange line _ _ | unsortedInput line _ => some line
  | _ => none

namespace Document

/-- Why a line is refused behind the lines in front of it. -/
inductive Refused (front : List Bytes) (line : Bytes) : Error → Prop
  | notText (bytes : decode? line = none) : Refused front line .notText
  | malformed {text : String} (decoded : decode? line = some text)
      (rangeless : range? text.toList = none) :
      Refused front line (.malformedInput (front.length + 1) text)
  | inverted {r : Interval} (stands : StandsFor line r) (upsideDown : r.high < r.low) :
      Refused front line (.invertedRange (front.length + 1) r.low r.high)
  | unsorted {r q : Interval} {earlier : Bytes} (stands : StandsFor line r)
      (listed : earlier ∈ front) (before : StandsFor earlier q) (below : r.low < q.low) :
      Refused front line (.unsortedInput (front.length + 1) r.low)

section Line

variable {front : List Bytes} {line : Bytes} {r : Interval} {e : Error} {m : Nat}

theorem refused_of_readLine (h : readLine (front.length + 1) line = .error e) :
    Refused front line e := by
  unfold readLine at h
  split at h
  · next bytes =>
    cases h
    exact .notText bytes
  · next text decoded =>
    split at h
    · next rangeless =>
      cases h
      exact .malformed decoded rangeless
    · next r found =>
      split at h
      · next upsideDown =>
        cases h
        exact .inverted ⟨text, decoded, found⟩ upsideDown
      · cases h

/-- A line that gives an upright range, starting no earlier than those in front, is not refused. -/
theorem not_refused (stands : StandsFor line r) (upright : r.low ≤ r.high)
    (sorted : ∀ earlier ∈ front, ∀ q, StandsFor earlier q → q.low ≤ r.low) :
    ¬ Refused front line e := by
  intro refused
  cases refused with
  | notText bytes =>
    obtain ⟨text, decoded, -⟩ := stands
    cases bytes.symm.trans decoded
  | malformed decoded rangeless =>
    obtain ⟨text, decoded', found⟩ := stands
    cases decoded.symm.trans decoded'
    cases rangeless.symm.trans found
  | inverted other upsideDown =>
    cases stands.unique other
    exact UInt32.not_lt.2 upright upsideDown
  | unsorted other listed before below =>
    cases stands.unique other
    exact UInt32.not_lt.2 (sorted _ listed _ before) below

/-- An error about a line is about the one that is refused. -/
theorem Refused.line_eq (h : Refused front line e) (hm : e.line? = some m) :
    front.length + 1 = m := by
  cases h with
  | notText bytes => cases hm
  | malformed decoded rangeless => exact Option.some.inj hm
  | inverted stands upsideDown => exact Option.some.inj hm
  | unsorted stands listed before below => exact Option.some.inj hm

end Line

namespace Intake

variable {ceiling number : Nat} {i j : Intake} {s : RangeStore} {p r : Interval} {e : Error}
  {front : List Bytes} {line : Bytes}

/-- A range that keeps the ranges canonical is stored wherever the ceiling has room for it. -/
theorem exists_store (h : Canonical (s.toList ++ [p])) :
    ∃ t : RangeStore, t.toList = s.toList ++ [p] ∧
      ∀ ceiling, store ceiling s p = within ceiling t.size t := by
  have pushed : s.push p = .ok ⟨(s.toList ++ [p]).toArray, h⟩ := RangeStore.push_eq_ok_iff.2 rfl
  refine ⟨⟨(s.toList ++ [p]).toArray, h⟩, rfl, fun ceiling => ?_⟩
  exact store_of_store_eq_ok (store_eq_ok_iff.2 ⟨Nat.lt_add_one s.size, pushed⟩)

/-- A range is refused because it starts below the pending one, or because that cannot be stored. -/
theorem add_eq_error_cases (h : i.add ceiling number r = .error e) :
    ∃ p, i.pending = some p ∧
      (r.low < p.low ∧ .unsortedInput number r.low = e ∨ store ceiling i.closed p = .error e) := by
  unfold add at h
  split at h
  · cases h
  · next p pending =>
    refine ⟨p, pending, ?_⟩
    split at h
    · next below => exact .inl ⟨below, Except.error.inj h⟩
    · split at h
      · cases h
      · right
        cases stored : store ceiling i.closed p with
        | error reason =>
          rw [stored] at h
          cases h
          rfl
        | ok closed =>
          rw [stored] at h
          cases h

/-- What an intake holds after the lines in front, wherever the ceiling was. -/
structure Follows (i : Intake) (front : List Bytes) : Prop where
  canonical : Canonical i.ranges
  unused : i.pending = none → i.closed.toList = []
  started : ∀ p ∈ i.pending, ∃ line ∈ front, ∃ q, StandsFor line q ∧ q.low = p.low
  length_le : i.ranges.length ≤ front.length

theorem follows_empty : empty.Follows [] where
  canonical := .nil
  unused _ := rfl
  started := nofun
  length_le := Nat.le_refl 0

namespace Follows

theorem canonical_pending (h : i.Follows front) (hp : i.pending = some p) :
    Canonical (i.closed.toList ++ [p]) := by
  have canonical := h.canonical
  rw [ranges, hp] at canonical
  exact canonical

/-- The line behind those in front keeps what they left. -/
theorem add (h : i.Follows front) (stands : StandsFor line r) (upright : r.low ≤ r.high)
    (ha : i.add ceiling number r = .ok j) : j.Follows (front ++ [line]) := by
  have newest : ∃ l ∈ front ++ [line], ∃ q, StandsFor l q ∧ q.low = r.low :=
    ⟨line, by simp, r, stands, rfl⟩
  have length := h.length_le
  rcases add_cases ha with ⟨pending, rfl⟩ | ⟨p, pending, sorted, touching, rfl⟩ |
    ⟨p, closed, pending, sorted, gap, stored, rfl⟩
  · -- the first line
    have empty := h.unused pending
    refine ⟨?_, by simp, by simpa using newest, by simp [ranges, empty]⟩
    rw [ranges, empty]
    exact ⟨by simpa using upright, List.pairwise_singleton _ _⟩
  · -- the pending range grows at its end
    have before := h.canonical_pending pending
    rw [canonical_concat_iff] at before
    obtain ⟨complete, ordered, apart⟩ := before
    have longer : p.high ≤ max p.high r.high := by
      rw [UInt32.le_iff_toNat_le, toNat_max]
      exact Nat.le_max_left _ _
    refine ⟨?_, by simp, ?_, ?_⟩
    · exact canonical_concat_iff.2 ⟨complete, UInt32.le_trans ordered longer, apart⟩
    · intro grown hg
      cases hg
      obtain ⟨l, hl, q, hq, low⟩ := h.started p pending
      exact ⟨l, List.mem_append_left _ hl, q, hq, low⟩
    · simp only [ranges, pending, Option.toList_some, List.length_append, List.length_singleton]
        at length ⊢
      omega
  · -- the pending range is complete, and the new one lies behind a gap
    have before := h.canonical_pending pending
    have complete := RangeStore.toList_push (store_eq_ok_iff.1 stored).2
    refine ⟨?_, by simp, by simpa using newest, ?_⟩
    · apply canonical_concat_iff.2
      rw [complete]
      refine ⟨before, upright, ?_⟩
      intro prev hprev
      simp only [List.getLast?_concat, Option.mem_some_iff] at hprev
      subst hprev
      exact gap
    · simp only [ranges, pending, complete, Option.toList_some, List.length_append,
        List.length_singleton] at length ⊢
      omega

/-- What the lines in front left can be finished wherever the ceiling has room for it. -/
theorem exists_finish (h : i.Follows front) :
    ∃ s : RangeStore, s.toList = i.ranges ∧ ∀ ceiling, i.finish ceiling = within ceiling s.size s := by
  cases pending : i.pending with
  | none =>
    have size : i.closed.size = 0 := by rw [RangeStore.size_eq, h.unused pending, List.length_nil]
    refine ⟨i.closed, by simp [ranges, pending], fun ceiling => ?_⟩
    rw [finish, pending, within, if_pos (by omega)]
  | some p =>
    obtain ⟨s, holds, stores⟩ := exists_store (h.canonical_pending pending)
    refine ⟨s, by simp [ranges, pending, holds], fun ceiling => ?_⟩
    rw [finish, pending]
    exact stores ceiling

/-- A range is refused where it starts below a line in front, or for the ceiling. -/
theorem add_error (h : i.Follows front) (stands : StandsFor line r)
    (ha : i.add ceiling (front.length + 1) r = .error e) :
    e = .capacityExceeded ceiling ∨ Refused front line e := by
  obtain ⟨p, pending, ⟨below, rfl⟩ | refused⟩ := add_eq_error_cases ha
  · right
    obtain ⟨earlier, listed, q, before, low⟩ := h.started p pending
    exact .unsorted stands listed before (low ▸ below)
  · left
    obtain ⟨t, -, stores⟩ := exists_store (h.canonical_pending pending)
    rw [stores, within] at refused
    split at refused
    · cases refused
    · exact (Except.error.inj refused).symm

end Follows

end Intake

section Lines

variable {ceiling number : Nat} {front back all : List Bytes} {line : Bytes} {i j : Intake}
  {e : Error}

theorem readLines_append (ceiling number : Nat) (front back : List Bytes) (i : Intake) :
    readLines ceiling number (front ++ back) i =
      (readLines ceiling number front i).bind (readLines ceiling (number + front.length) back) := by
  induction front generalizing number i with
  | nil => rfl
  | cons line rest ih =>
    rw [List.cons_append, readLines, readLines, List.length_cons]
    cases readLine number line with
    | error e => rfl
    | ok r =>
      cases hadd : i.add ceiling number r with
      | error e => simp only [bind, Except.bind, hadd]
      | ok k =>
        simp only [bind, Except.bind, hadd, ih]
        rw [Nat.add_right_comm, Nat.add_assoc]

/-- Lines behind those in front keep what they left. -/
theorem Intake.Follows.readLines (h : i.Follows front)
    (hr : Document.readLines ceiling number all i = .ok j) : j.Follows (front ++ all) := by
  induction all generalizing front number i with
  | nil =>
    cases hr
    rw [List.append_nil]
    exact h
  | cons line rest ih =>
    obtain ⟨r, k, hline, hadd, hrest⟩ := readLines_cons_eq_ok_iff.1 hr
    obtain ⟨stands, upright⟩ := readLine_eq_ok_iff.1 hline
    have follows := ih (h.add stands upright hadd) hrest
    rw [List.append_assoc, List.singleton_append] at follows
    exact follows

/-- Reading stops at the first line that gives an error, behind lines that are read. -/
theorem exists_line_of_readLines_eq_error (h : readLines ceiling number all i = .error e) :
    ∃ front line back j, all = front ++ line :: back ∧ readLines ceiling number front i = .ok j ∧
      readLines ceiling (number + front.length) [line] j = .error e := by
  induction all generalizing number i with
  | nil => cases h
  | cons line rest ih =>
    cases step : readLines ceiling number [line] i with
    | error reason =>
      rw [← List.singleton_append, readLines_append, step] at h
      cases h
      exact ⟨[], line, rest, i, rfl, rfl, step⟩
    | ok k =>
      rw [← List.singleton_append, readLines_append, step] at h
      obtain ⟨front, l, back, j, rfl, hfront, hl⟩ := ih h
      refine ⟨line :: front, l, back, j, rfl, ?_, ?_⟩
      · rw [← List.singleton_append, readLines_append, step]
        exact hfront
      · rw [List.length_cons, Nat.add_comm front.length, ← Nat.add_assoc]
        exact hl

/-- A line behind those in front is refused, or passes the ceiling. -/
theorem Intake.Follows.readLine_error (h : i.Follows front)
    (hl : Document.readLines ceiling (1 + front.length) [line] i = .error e) :
    e = .capacityExceeded ceiling ∨ Refused front line e := by
  rw [Nat.add_comm, Document.readLines] at hl
  cases hline : readLine (front.length + 1) line with
  | error reason =>
    rw [hline] at hl
    cases hl
    exact .inr (refused_of_readLine hline)
  | ok r =>
    rw [hline] at hl
    cases hadd : i.add ceiling (front.length + 1) r with
    | error reason =>
      simp only [bind, Except.bind, hadd] at hl
      cases hl
      exact h.add_error (readLine_eq_ok_iff.1 hline).1 hadd
    | ok k =>
      simp only [bind, Except.bind, hadd] at hl
      cases hl

end Lines

section Read

variable {document start : Bytes} {ceiling : Nat} {front : List Bytes} {i : Intake} {e : Error}

/-- A document is refused for the ceiling, or at one of its lines behind lines that are read. -/
theorem read_error_cases (h : read document ceiling = .error e) :
    e = .capacityExceeded ceiling ∨
      ∃ front line back, lines document = front ++ line :: back ∧ Refused front line e ∧
        (∃ i, readLines ceiling 1 front .empty = .ok i) ∧
        readLines ceiling 1 (front ++ [line]) .empty = .error e := by
  rw [read] at h
  cases run : readLines ceiling 1 (lines document) .empty with
  | error reason =>
    rw [run] at h
    cases h
    obtain ⟨front, line, back, i, split, hfront, hline⟩ := exists_line_of_readLines_eq_error run
    have follows := Intake.follows_empty.readLines hfront
    refine (follows.readLine_error hline).imp_right fun refused => ?_
    refine ⟨front, line, back, split, refused, ⟨i, hfront⟩, ?_⟩
    rw [readLines_append, hfront]
    exact hline
  | ok i =>
    left
    rw [run] at h
    obtain ⟨s, -, finishes⟩ := (Intake.follows_empty.readLines run).exists_finish
    have refused : i.finish ceiling = .error e := h
    rw [finishes, within] at refused
    split at refused
    · cases refused
    · exact (Except.error.inj refused).symm

/-- Lines that were read under some ceiling are read on their own under every ceiling that is no less
than how many they are. -/
theorem exists_read_of_readLines (h : readLines ceiling 1 front .empty = .ok i)
    (hs : lines start = front) :
    ∃ s, ∀ other, front.length ≤ other → read start other = .ok s := by
  have follows := Intake.follows_empty.readLines h
  have length := follows.length_le
  obtain ⟨s, holds, finishes⟩ := follows.exists_finish
  have size : s.size = i.ranges.length := by rw [RangeStore.size_eq, holds]
  have complete : i.closed.size ≤ s.size := by
    rw [size, RangeStore.size_eq, Intake.ranges, List.length_append]
    omega
  refine ⟨s, fun other room => ?_⟩
  rw [List.nil_append] at length
  rw [read_eq_ok_iff]
  refine ⟨i, ?_, ?_⟩
  · rw [hs, readLines_of_readLines_eq_ok h (Nat.zero_le _), within, if_pos (by omega)]
  · rw [finishes, within, if_pos (by omega)]

/-- What lies behind an error does not matter. -/
theorem read_eq_error_of_readLines (h : readLines ceiling 1 front .empty = .error e)
    (hp : (lines document).take front.length = front) : read document ceiling = .error e := by
  rw [read, ← List.take_append_drop front.length (lines document), hp, readLines_append, h]
  rfl

/-- A document is refused for what its lines say or for the ceiling, and for nothing else. Lines that
give upright ranges in the order of their starts are read or pass the ceiling, and no range is ever
refused by the store. An error about a line stands at that line: the lines in front of it make a
document that is read under every ceiling with room for a range a line, every document with the same
lines up to it fails in the same way under the same ceiling, and a line that is out of order starts
below a line in front of it. -/
theorem read_refuses (document : Bytes) (ceiling : Nat) :
    ((∀ line ∈ lines document, ∃ r, StandsFor line r ∧ r.low ≤ r.high) →
      (lines document).Pairwise (fun a b => ∀ q r, StandsFor a q → StandsFor b r → q.low ≤ r.low) →
      (∃ s, read document ceiling = .ok s) ∨
        read document ceiling = .error (.capacityExceeded ceiling)) ∧
    (∀ reason, read document ceiling ≠ .error (.interval reason)) ∧
    ∀ e m, read document ceiling = .error e → e.line? = some m →
      (0 < m ∧ m ≤ (lines document).length) ∧
      (∃ start rest, start ++ rest = document ∧ lines start = (lines document).take (m - 1)) ∧
      (∀ start, lines start = (lines document).take (m - 1) →
        ∃ s, ∀ other, m - 1 ≤ other → read start other = .ok s) ∧
      (∀ other, (lines other).take m = (lines document).take m → read other ceiling = .error e) ∧
      ∀ low, e = .unsortedInput m low →
        ∃ earlier ∈ (lines document).take (m - 1), ∃ q, StandsFor earlier q ∧ low < q.low := by
  refine ⟨?_, ?_, ?_⟩
  · intro upright sorted
    cases hread : read document ceiling with
    | ok s => exact .inl ⟨s, rfl⟩
    | error e =>
      right
      rcases read_error_cases hread with rfl | ⟨front, line, back, split, refused, -, -⟩
      · rfl
      · exfalso
        rw [split] at upright sorted
        obtain ⟨r, stands, ordered⟩ := upright line (by simp)
        have behind := (List.pairwise_append.1 sorted).2.2
        refine not_refused stands ordered ?_ refused
        intro earlier listed q before
        exact behind earlier listed line (by simp) q r before stands
  · intro reason hread
    rcases read_error_cases hread with he | ⟨front, line, back, -, refused, -, -⟩
    · cases he
    · cases refused
  · intro e m hread hm
    rcases read_error_cases hread with rfl | ⟨front, line, back, split, refused, ⟨i, hi⟩, fails⟩
    · cases hm
    · obtain rfl := refused.line_eq hm
      have before : (lines document).take (front.length + 1 - 1) = front := by simp [split]
      have upTo : (lines document).take (front.length + 1) = front ++ [line] := by
        simp [split, List.take_append]
      refine ⟨⟨Nat.succ_pos _, by simp [split]⟩, exists_lines_eq_take _ _, ?_, ?_, ?_⟩
      · rw [before]
        intro start hstart
        exact exists_read_of_readLines hi hstart
      · rw [upTo]
        intro other same
        apply read_eq_error_of_readLines fails
        rw [List.length_append, List.length_singleton]
        exact same
      · rw [before]
        intro low he
        cases refused with
        | unsorted stands listed earlier below =>
          cases he
          exact ⟨_, listed, _, earlier, below⟩
        | _ => cases he

/-- Three ranges that do not come in order, the third below both others, and a line without one. -/
def falling : Bytes := "41..5A\n50..60\n20\nzzz\n".toUTF8.toList

/-- Two ranges in order with a gap between them. -/
def rising : Bytes := "10\n18..1F\n".toUTF8.toList

theorem lines_rising : lines rising = ["10".toUTF8.toList, "18..1F".toUTF8.toList] := by cbv

theorem standsFor_rising : StandsFor "10".toUTF8.toList ⟨0x10, 0x10⟩ ∧
    StandsFor "18..1F".toUTF8.toList ⟨0x18, 0x1F⟩ :=
  ⟨⟨"10", by cbv, by cbv⟩, ⟨"18..1F", by cbv, by cbv⟩⟩

theorem read_refuses_falling :
    ((∀ line ∈ lines rising, ∃ r, StandsFor line r ∧ r.low ≤ r.high) ∧
      (lines rising).Pairwise
        (fun a b => ∀ q r, StandsFor a q → StandsFor b r → q.low ≤ r.low) ∧
      ((∃ s, read rising 1 = .ok s) ∨ read rising 1 = .error (.capacityExceeded 1))) ∧
    read falling 1 = .error (.unsortedInput 3 0x20) ∧
      (∀ start, lines start = (lines falling).take 2 →
        ∃ s, ∀ other, 2 ≤ other → read start other = .ok s) ∧
      (∀ other, (lines other).take 3 = (lines falling).take 3 →
        read other 1 = .error (.unsortedInput 3 0x20)) ∧
      ∃ earlier ∈ (lines falling).take 2, ∃ q, StandsFor earlier q ∧ 0x20 < q.low := by
  constructor
  · obtain ⟨first, second⟩ := standsFor_rising
    have upright : ∀ line ∈ lines rising, ∃ r, StandsFor line r ∧ r.low ≤ r.high := by
      simp only [lines_rising, List.forall_mem_cons, List.not_mem_nil, false_implies, implies_true,
        and_true]
      exact ⟨⟨_, first, by decide⟩, ⟨_, second, by decide⟩⟩
    have sorted : (lines rising).Pairwise
        (fun a b => ∀ q r, StandsFor a q → StandsFor b r → q.low ≤ r.low) := by
      simp only [lines_rising, List.pairwise_pair]
      intro q r hq hr
      rw [hq.unique first, hr.unique second]
      decide
    exact ⟨upright, sorted, (read_refuses rising 1).1 upright sorted⟩
  · have refused : read falling 1 = .error (.unsortedInput 3 0x20) := by cbv
    obtain ⟨-, -, front, same, order⟩ := (read_refuses falling 1).2.2 _ 3 refused rfl
    exact ⟨refused, front, same, order 0x20 rfl⟩

end Read

end Document

end RangeLookup
