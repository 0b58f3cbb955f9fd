import RangeLookup.Compile
import RangeLookup.Proofs.Document.Ceiling

/-!
# Compilation sees what a document denotes

Compilation sees a document as the set of values it denotes. Ranges that are read are canonical, so
documents that denote the same values give the same ranges (`Document.read_unique`), and the listing
is made from the ranges alone. What is left of the document is whether it is read at all, and under
a ceiling of its own that depends on nothing but the number of ranges.
-/

namespace RangeLookup

open Document

variable {d e : Bytes} {m n : Nat} {s t : RangeStore}

/-- Documents that denote the same values give the same ranges. -/
theorem Document.read_unique (hd : read d m = .ok s) (he : read e n = .ok t)
    (same : ∀ v, Denotes d v ↔ Denotes e v) : s = t := by
  apply RangeStore.ext
  apply canonical_unique s.toList_canonical t.toList_canonical
  intro v
  rw [covered_read hd, covered_read he, same]

/-- Documents that are read under some ceiling and denote the same values have the same listing, or
fail to have one for the same reason, for every catalog, ceiling and kind of listing. -/
theorem compile_eq_of_denotes_iff (hd : read d m = .ok s) (he : read e n = .ok t)
    (same : ∀ v, Denotes d v ↔ Denotes e v) (catalog : Catalog) (ceiling : Nat)
    (kind : ListingKind) : compile d catalog ceiling kind = compile e catalog ceiling kind := by
  obtain rfl := read_unique hd he same
  rw [compile_eq, compile_eq, read_of_read_eq_ok hd, read_of_read_eq_ok he]

/-- The values of `overlapping` with other lines, markers, cases and remarks. -/
def regrouped : Bytes := "0x41..50\n4a..7b # more\n\t7B\n0X100\n".toUTF8.toList

theorem read_regrouped : read regrouped 7 = .ok overlappingRanges := by cbv

theorem compile_eq_of_denotes_iff_regrouped :
    read overlapping 2 = .ok overlappingRanges ∧ read regrouped 7 = .ok overlappingRanges ∧
      (∀ v, Denotes overlapping v ↔ Denotes regrouped v) ∧
      ∀ catalog ceiling kind,
        compile overlapping catalog ceiling kind = compile regrouped catalog ceiling kind := by
  have same : ∀ v, Denotes overlapping v ↔ Denotes regrouped v := by
    intro v
    rw [← covered_read read_overlapping, ← covered_read read_regrouped]
  exact ⟨read_overlapping, read_regrouped, same,
    compile_eq_of_denotes_iff read_overlapping read_regrouped same⟩

end RangeLookup
