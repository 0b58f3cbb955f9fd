import Mathlib.Data.List.Basic
import Mathlib.Tactic.SplitIfs
import RangeLookup.Document.Lines
import RangeLookup.Document.Spelling

/-!
# Texts as bytes

The bytes of a text are decoded to that text (`decode?_encode`), and a document that is made of
lines has these lines, but for a carriage return at the end of each (`lines_ofLines`,
`dropReturn_encode`). Line feeds and carriage returns are found among the bytes because a byte below
128 is a character of its own and part of no other (`of_mem_utf8EncodeChar`).
-/

namespace RangeLookup.Document

variable {c : Char} {b : UInt8} {text : List Char} {texts : List (List Char)}

/-- A byte below 128 stands for the character with this code and for no other. -/
theorem of_mem_utf8EncodeChar (h : b ∈ String.utf8EncodeChar c) (ascii : b.toNat < 128) :
    c.toNat = b.toNat := by
  have code : c.val.toNat = c.toNat := rfl
  rw [String.utf8EncodeChar.eq_1, code] at h
  split_ifs at h with one two three
  · rw [List.mem_singleton] at h
    rw [h, UInt8.toNat_ofNat']
    omega
  all_goals
    -- every byte of a longer code is marked by its highest bit
    exfalso
    simp only [List.mem_cons, List.not_mem_nil, or_false] at h
    rcases h with rfl | rfl | rfl | rfl <;> rw [UInt8.toNat_ofNat'] at ascii <;> omega

theorem encode_append (front back : List Char) :
    encode (front ++ back) = encode front ++ encode back := List.flatMap_append

theorem decode?_encode (text : List Char) : decode? (encode text) = some (String.ofList text) := by
  have bytes : (⟨(encode text).toArray⟩ : ByteArray) = text.utf8Encode := by
    apply ByteArray.ext
    rw [encode, List.utf8Encode.eq_1, List.data_toByteArray]
  rw [decode?, bytes, String.fromUTF8?, dif_pos ByteArray.isValidUTF8_utf8Encode]
  rfl

theorem feed_not_mem_encode (h : '\n' ∉ text) : 10 ∉ encode text := by
  intro feed
  obtain ⟨c, listed, byte⟩ := List.mem_flatMap.1 feed
  have code := of_mem_utf8EncodeChar byte (by decide)
  have same : c = '\n' := Char.toNat_inj.1 code
  exact h (same ▸ listed)

/-- The carriage return that goes with a line feed is the last character of the line. -/
theorem dropReturn_encode (text : List Char) :
    dropReturn (encode text) =
      encode (if text.getLast? = some '\r' then text.dropLast else text) := by
  rcases List.eq_nil_or_concat text with rfl | ⟨front, c, rfl⟩
  · rfl
  · simp only [List.concat_eq_append, List.getLast?_concat, List.dropLast_concat, Option.some.injEq]
    have bytes : encode (front ++ [c]) = encode front ++ String.utf8EncodeChar c := by
      rw [encode_append]
      exact congrArg (encode front ++ ·) (List.flatMap_singleton _ c)
    by_cases carriage : c = '\r'
    · rw [if_pos carriage, bytes, carriage]
      show dropReturn (encode front ++ [13]) = encode front
      rw [dropReturn, List.getLast?_concat, if_pos rfl, List.dropLast_concat]
    · have last : (encode (front ++ [c])).getLast? ≠ some 13 := by
        intro h
        rw [bytes, List.getLast?_append_of_ne_nil _ String.utf8EncodeChar_ne_nil] at h
        have code := of_mem_utf8EncodeChar (List.mem_of_getLast? h) (by decide)
        exact carriage (Char.toNat_inj.1 code)
      rw [if_neg carriage, dropReturn, if_neg last]

theorem lines_ofLines (h : ∀ text ∈ texts, '\n' ∉ text) :
    lines (ofLines texts) = texts.map fun text => dropReturn (encode text) := by
  induction texts with
  | nil => exact lines_nil
  | cons text rest ih =>
    have first : '\n' ∉ text := h text List.mem_cons_self
    have behind := ih fun t ht => h t (List.mem_cons_of_mem _ ht)
    have bytes : ofLines (text :: rest) = encode text ++ 10 :: ofLines rest := by
      rw [ofLines, List.flatMap_cons, encode_append, encode_append, List.append_assoc]
      rfl
    rw [bytes, lines_append_feed (feed_not_mem_encode first), behind, List.map_cons]

end RangeLookup.Document
