import RangeLookup.FlatTable
import RangeLookup.Packing.Directive

/-!
# Packed table entries

Five formats have a byte layout: two equal fields of whole bytes, two fields of twelve bits in three
bytes, and fields of ten and six bits in one word. Writing refuses an entry whose halves do not fit,
the offset first; reading fails when the data stop within an entry.
-/

namespace RangeLookup

/-- Both halves of an entry fit into the fields of a format; the first that does not is the
error. -/
def Entry.check (e : Entry) (f : Format) : Except Error Unit :=
  if !f.base.holds e.offset then .error (.valueOutOfRange .offset e.offset f.base)
  else if !f.span.holds e.span then .error (.valueOutOfRange .span e.span f.span)
  else .ok ()

/-- The byte layouts of table entries. -/
inductive Layout where
  /-- Offset and span one after the other, each one unit. -/
  | uniform (unit : DataUnit)
  /-- Twelve bits each: both low bytes, then a byte with the high four bits of both. -/
  | twelve
  /-- Ten bits of offset below six bits of span in one word. -/
  | tenSix
  deriving DecidableEq, Repr

namespace Layout

/-- The format that a layout is for. -/
def format : Layout → Format
  | uniform .byte => ⟨⟨8, by decide, by decide⟩, ⟨8, by decide, by decide⟩⟩
  | uniform .word => .words
  | uniform .doubleWord => .doubleWords
  | twelve => ⟨⟨12, by decide, by decide⟩, ⟨12, by decide, by decide⟩⟩
  | tenSix => ⟨⟨10, by decide, by decide⟩, ⟨6, by decide, by decide⟩⟩

/-- All layouts. -/
def all : List Layout :=
  [uniform .byte, uniform .word, uniform .doubleWord, twelve, tenSix]

/-- The layout of a format, if one is defined. -/
def ofFormat? (f : Format) : Option Layout := all.find? fun l => l.format = f

/-- The layout of a format; a format without one is the error. -/
def ofFormat (f : Format) : Except Error Layout :=
  match ofFormat? f with
  | some l => .ok l
  | none => .error (.unsupportedPacking f)

theorem ofFormat?_format (l : Layout) : ofFormat? l.format = some l := by
  rcases l with u | _ | _
  · cases u <;> decide
  · decide
  · decide

theorem ofFormat?_eq_some_iff {f : Format} {l : Layout} : ofFormat? f = some l ↔ l.format = f := by
  constructor
  · intro h
    simpa using List.find?_some h
  · rintro rfl
    exact l.ofFormat?_format

/-- The three bytes of an entry with two fields of twelve bits. -/
def twelveBytes (e : Entry) : Bytes :=
  [UInt8.ofNat (e.offset.toNat % 256), UInt8.ofNat (e.span.toNat % 256),
    UInt8.ofNat (e.offset.toNat / 256 + 16 * (e.span.toNat / 256))]

/-- The word of an entry with fields of ten and six bits. -/
def tenSixWord (e : Entry) : Nat := e.offset.toNat + 1024 * e.span.toNat

/-- The bytes of an entry that fits. -/
def bytesOf (l : Layout) (e : Entry) : Bytes :=
  match l with
  | uniform unit => littleEndian unit.size e.offset.toNat ++ littleEndian unit.size e.span.toNat
  | twelve => twelveBytes e
  | tenSix => littleEndian 2 (tenSixWord e)

/-- The bytes of an entry, refused if a half does not fit. -/
def encode (l : Layout) (e : Entry) : Except Error Bytes := do
  e.check l.format
  return l.bytesOf e

/-- The entry as a line of data, refused if a half does not fit. -/
def directive (l : Layout) (e : Entry) : Except Error Directive := do
  e.check l.format
  match l with
  | uniform unit => return ⟨unit, 1, [e.offset.toNat, e.span.toNat]⟩
  | twelve => return ⟨.byte, 2, (twelveBytes e).map UInt8.toNat⟩
  | tenSix => return ⟨.word, 4, [tenSixWord e]⟩

/-- The leading number of as many bytes, and the bytes after it. -/
def takeNumber? (size : Nat) (bytes : Bytes) : Option (Nat × Bytes) :=
  if size ≤ bytes.length then some (ofLittleEndian (bytes.take size), bytes.drop size) else none

/-- The leading entry, and the bytes after it. -/
def decode? (l : Layout) (bytes : Bytes) : Option (Entry × Bytes) :=
  match l with
  | uniform unit => do
    let (offset, rest) ← takeNumber? unit.size bytes
    let (span, rest) ← takeNumber? unit.size rest
    return (⟨UInt32.ofNat offset, UInt32.ofNat span⟩, rest)
  | twelve =>
    match bytes with
    | lowOffset :: lowSpan :: high :: rest =>
      some (⟨UInt32.ofNat (lowOffset.toNat + 256 * (high.toNat % 16)),
        UInt32.ofNat (lowSpan.toNat + 256 * (high.toNat / 16))⟩, rest)
    | _ => none
  | tenSix => do
    let (word, rest) ← takeNumber? 2 bytes
    return (⟨UInt32.ofNat (word % 1024), UInt32.ofNat (word / 1024)⟩, rest)

theorem takeNumber?_length {size n : Nat} {bytes rest : Bytes}
    (h : takeNumber? size bytes = some (n, rest)) : bytes.length = size + rest.length := by
  unfold takeNumber? at h
  split at h
  · cases h; simp; omega
  · cases h

theorem entrySize_uniform (unit : DataUnit) :
    (uniform unit).format.entrySize = unit.size + unit.size := by
  cases unit <;> rfl

/-- An entry takes as many bytes as its format says. -/
theorem decode?_length {l : Layout} {bytes rest : Bytes} {e : Entry}
    (h : l.decode? bytes = some (e, rest)) : bytes.length = l.format.entrySize + rest.length := by
  rcases l with unit | _ | _
  · simp only [decode?, Option.bind_eq_bind, Option.bind_eq_some_iff, Option.pure_def,
      Option.some.injEq, Prod.mk.injEq, Prod.exists] at h
    obtain ⟨m, r, h₁, n, r', h₂, -, rfl⟩ := h
    have := takeNumber?_length h₁
    have := takeNumber?_length h₂
    rw [entrySize_uniform]
    omega
  · simp only [decode?] at h
    split at h
    · cases h; simp [format, Format.entrySize]; omega
    · cases h
  · simp only [decode?, Option.bind_eq_bind, Option.bind_eq_some_iff, Option.pure_def,
      Option.some.injEq, Prod.mk.injEq, Prod.exists] at h
    obtain ⟨m, r, h₁, -, rfl⟩ := h
    simpa [format, Format.entrySize] using takeNumber?_length h₁

/-- The buffer with one more entry at its end. -/
def append (l : Layout) (buffer : Bytes) (e : Entry) : Except Error Bytes :=
  (l.encode e).map (buffer ++ ·)

/-- The entries of data that hold whole entries and nothing else. -/
def decodeAll (l : Layout) (bytes : Bytes) : Except Error (List Entry) :=
  if bytes = [] then .ok []
  else match _ : l.decode? bytes with
    | some (e, rest) => (l.decodeAll rest).map (e :: ·)
    | none => .error .unexpectedEndOfData
termination_by bytes.length
decreasing_by
  have := decode?_length ‹_›
  have := l.format.entrySize_pos
  omega

end Layout

/-- The entries as packed data in a format. -/
def pack (f : Format) (entries : List Entry) : Except Error Bytes := do
  let l ← Layout.ofFormat f
  entries.foldlM l.append []

/-- The entries that packed data in a format hold. -/
def unpack (f : Format) (bytes : Bytes) : Except Error (List Entry) := do
  (← Layout.ofFormat f).decodeAll bytes

/-- Packed data that are being read: how many bytes were taken, and those that are left. -/
structure Cursor where
  position : Nat
  rest : Bytes

/-- The next entry. Where the data stop within it, they are used up and every later read fails. -/
def Cursor.next (c : Cursor) (l : Layout) : Except Error Entry × Cursor :=
  match l.decode? c.rest with
  | some (e, rest) => (.ok e, ⟨c.position + l.format.entrySize, rest⟩)
  | none => (.error .unexpectedEndOfData, ⟨c.position + c.rest.length, []⟩)

end RangeLookup
