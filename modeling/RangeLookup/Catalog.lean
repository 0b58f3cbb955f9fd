import RangeLookup.Error

/-!
# Catalogs of table formats

A catalog has at least one format and none twice, in the order that decides between equally cheap
tables.
-/

namespace RangeLookup

/-- The formats that tables may use; the earlier of two equally cheap ones is taken. -/
structure Catalog where
  formats : List Format
  ne_nil : formats ≠ []
  nodup : formats.Nodup

namespace Catalog

/-- The first format that stands earlier in the list already. -/
def repeated? : List Format → List Format → Option Format
  | _, [] => none
  | seen, f :: rest => if f ∈ seen then some f else repeated? (seen ++ [f]) rest

theorem nodup_of_repeated?_eq_none {seen rest : List Format} (hs : seen.Nodup)
    (h : repeated? seen rest = none) : (seen ++ rest).Nodup := by
  induction rest generalizing seen with
  | nil => simpa using hs
  | cons f rest ih =>
    rw [repeated?] at h
    split at h
    · cases h
    · next hf =>
      have : (seen ++ [f]).Nodup := by
        refine List.nodup_append.2 ⟨hs, by simp, fun a ha b hb => ?_⟩
        rw [List.mem_singleton.1 hb]
        exact fun e => hf (e ▸ ha)
      simpa using ih this h

/-- The catalog of the formats in the order given; the first format that repeats an earlier one is
the error. -/
def ofList (formats : List Format) : Except Error Catalog :=
  match h : repeated? [] formats with
  | some f => .error (.duplicateFormat f)
  | none =>
    if hn : formats = [] then .error .emptyCatalog
    else .ok ⟨formats, hn, by simpa using nodup_of_repeated?_eq_none List.nodup_nil h⟩

/-- The catalog that holds where none is chosen. -/
def standard : Catalog := ⟨[.words, .doubleWords], by decide, by decide⟩

theorem formats_ofList {formats : List Format} {c : Catalog} (h : ofList formats = .ok c) :
    c.formats = formats := by
  unfold ofList at h
  split at h
  · cases h
  · split at h
    · cases h
    · cases h; rfl

end Catalog

end RangeLookup
