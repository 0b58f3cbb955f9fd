import RangeLookup.Packing

/-!
# Packing one entry at a time

An entry is written to the end of a buffer that is changed in place, and read from a tape, data with
the place up to which they are used. An entry of two equal units is read in two parts, so that data
may stop between them. Nothing is put back when a step fails: the next one goes on with what it
left.

How bytes are taken from a tape is left to whoever reads, as long as they are the next ones and none
are taken where there are too few (`TakesExactly`).
-/

namespace RangeLookup

/-- Operations on one state in turn, whatever becomes of each: their results, and the state that is
left in the end. -/
def inTurn {ε σ α : Type} : List (EStateM ε σ α) → σ → List (Except ε α) × σ
  | [], state => ([], state)
  | op :: rest, state =>
    match op.run state with
    | .ok a left =>
      let (results, final) := inTurn rest left
      (.ok a :: results, final)
    | .error reason left =>
      let (results, final) := inTurn rest left
      (.error reason :: results, final)

/-- What is wrong with an entry for a format: the offset does not fit, or else the span. -/
inductive Entry.Offends (e : Entry) (f : Format) : Error → Prop
  | offset (tooGreat : f.base.values ≤ e.offset.toNat) :
    Offends e f (.valueOutOfRange .offset e.offset f.base)
  | span (fits : e.offset.toNat < f.base.values) (tooGreat : f.span.values ≤ e.span.toNat) :
    Offends e f (.valueOutOfRange .span e.span f.span)

/-- The entry goes to the end of the buffer, half by half where both are units of their own, after it
was found to fit. -/
def Layout.write (l : Layout) (e : Entry) : EStateM Error Bytes Unit := do
  ofExcept (e.check l.format)
  match l with
  | uniform unit =>
    modify (· ++ littleEndian unit.size e.offset.toNat)
    modify (· ++ littleEndian unit.size e.span.toNat)
  | twelve => modify (· ++ twelveBytes e)
  | tenSix => modify (· ++ littleEndian 2 (tenSixWord e))

/-- The entries that fit a format, in order. -/
def Format.accepted (f : Format) (entries : List Entry) : List Entry :=
  entries.filter fun e => e.Fits f

/-- Data and how many of them are used. The place may lie behind the end of the data. -/
structure Tape where
  data : Bytes
  position : Nat
  deriving DecidableEq

/-- The data that are not used. -/
def Tape.left (t : Tape) : Bytes := t.data.drop t.position

/-- A way to take bytes from tapes: exactly as many as asked for, if as many are left. Otherwise it
fails, and the place stays where it is or moves to the end. -/
structure TakesExactly (take : Nat → EStateM Error Tape Bytes) : Prop where
  enough : ∀ {size : Nat} {t : Tape}, size ≤ t.left.length →
    (take size).run t = .ok (t.left.take size) { t with position := t.position + size }
  short : ∀ {size : Nat} {t : Tape}, t.left.length < size →
    ∃ place, (place = t.position ∨ place = t.data.length) ∧
      (take size).run t = .error .unexpectedEndOfData { t with position := place }

section

variable (take : Nat → EStateM Error Tape Bytes)

/-- The next number of as many bytes. -/
def Tape.number (size : Nat) : EStateM Error Tape Nat := return ofLittleEndian (← take size)

/-- The next entry. -/
def Layout.read (l : Layout) : EStateM Error Tape Entry :=
  match l with
  | uniform unit => do
    let offset ← Tape.number take unit.size
    let span ← Tape.number take unit.size
    return ⟨UInt32.ofNat offset, UInt32.ofNat span⟩
  | twelve => do
    match ← take 3 with
    | [lowOffset, lowSpan, high] =>
      return ⟨UInt32.ofNat (lowOffset.toNat + 256 * (high.toNat % 16)),
        UInt32.ofNat (lowSpan.toNat + 256 * (high.toNat / 16))⟩
    | _ => throw .unexpectedEndOfData
  | tenSix => do
    let word ← Tape.number take 2
    return ⟨UInt32.ofNat (word % 1024), UInt32.ofNat (word / 1024)⟩

end

/-- Takes bytes from a tape; where too few are left, the place stays or moves to the end, as one
likes. -/
def Tape.take (stays : Bool) (size : Nat) : EStateM Error Tape Bytes := do
  let t ← get
  if size ≤ t.left.length then
    set { t with position := t.position + size }
    return t.left.take size
  else
    unless stays do set { t with position := t.data.length }
    throw .unexpectedEndOfData

end RangeLookup
