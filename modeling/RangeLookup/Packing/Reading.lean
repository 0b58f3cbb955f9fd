import RangeLookup.Packing

/-!
# Reading packed data to their end

Entries are taken from a cursor one after the other as long as bytes are left, and the first entry
that cannot be read stops the reading. A finite run of such reads is a derivation of
`Cursor.Yields`.
-/

namespace RangeLookup

/-- Reading from the cursor comes to an end, with the entries in order or the reason why it
stopped. -/
inductive Cursor.Yields (l : Layout) : Cursor → Except Error (List Entry) → Prop
  | done {c : Cursor} (used : c.rest = []) : Yields l c (.ok [])
  | read {c after : Cursor} {e : Entry} {result : Except Error (List Entry)} (left : c.rest ≠ [])
    (next : c.next l = (.ok e, after)) (more : Yields l after result) :
    Yields l c (result.map (e :: ·))
  | stopped {c after : Cursor} {reason : Error} (left : c.rest ≠ [])
    (next : c.next l = (.error reason, after)) : Yields l c (.error reason)

end RangeLookup
