import BinaryRecord.Storage.Entry
import BinaryRecord.Text.Encoding

namespace BinaryRecord

/-- A file is named for a record where its stem is the record's name, which may not end like a
struct then, or is that name with one struct suffix behind it. -/
structure FileName.NamedFor (name : FileName) (record : String) : Prop where
  nonempty : record ≠ ""
  stem : name.stem = encodeText (record ++ String.ofList structSuffix) ∨
    name.stem = encodeText record ∧ ¬ structSuffix <:+ record.toList

theorem name_of_extension {name extension : FileName} (cut : name.extension? = some extension) :
    name = name.stem ++ dot :: extension := by
  have parts := List.takeWhile_append_dropWhile (p := (· ≠ dot)) (l := name.reverse)
  have first := List.head?_dropWhile_not (· ≠ dot) name.reverse
  unfold FileName.extension? FileName.cut at cut
  unfold FileName.stem FileName.cut
  split at cut
  · cases cut
  · cases cut
  next byte stem _ after =>
  cases Option.some.inj cut
  rw [after] at parts first
  have isDot : byte = dot := by simpa using first
  calc name = name.reverse.reverse := (List.reverse_reverse name).symm
    _ = (name.reverse.takeWhile (· ≠ dot) ++ byte :: stem).reverse := by rw [parts]
    _ = stem.reverse ++ dot :: (name.reverse.takeWhile (· ≠ dot)).reverse := by simp [isDot]

theorem dropStructSuffix_eq_iff (stem record : List Char) :
    dropStructSuffix stem = record ↔
      stem = record ++ structSuffix ∨ stem = record ∧ ¬ structSuffix <:+ record := by
  unfold dropStructSuffix
  split
  · next suffixed =>
    obtain ⟨front, rfl⟩ := List.isSuffixOf_iff_suffix.mp suffixed
    have cut : (front ++ structSuffix).take ((front ++ structSuffix).length - structSuffix.length) =
        front := by simp
    rw [cut]
    constructor
    · rintro rfl
      exact .inl rfl
    · intro named
      rcases named with same | ⟨rfl, plain⟩
      · exact List.append_cancel_right same
      · exact absurd (List.suffix_append front structSuffix) plain
  · next plain =>
    rw [List.isSuffixOf_iff_suffix] at plain
    constructor
    · rintro rfl
      exact .inr ⟨rfl, plain⟩
    · intro named
      rcases named with rfl | ⟨rfl, -⟩
      · exact absurd (List.suffix_append record structSuffix) plain
      · rfl

theorem record?_eq_some_iff_dropped (name : FileName) (record : String) :
    name.record? = some record ↔
      record ≠ "" ∧ ∃ stem, name.stem = encodeText stem ∧
        dropStructSuffix stem.toList = record.toList := by
  unfold FileName.record?
  constructor
  · intro named
    obtain ⟨stem, decoded, rest⟩ := Option.bind_eq_some_iff.mp named
    obtain ⟨nonempty, same⟩ := Option.ite_none_left_eq_some.mp rest
    obtain rfl := Option.some.inj same
    refine ⟨by simpa using nonempty, stem, ?_, by simp⟩
    exact (decodeText?_eq_some_iff _ _).mp decoded
  · intro named
    obtain ⟨nonempty, stem, encoded, dropped⟩ := named
    rw [(decodeText?_eq_some_iff _ _).mpr encoded]
    simp [dropped, nonempty]

theorem record?_eq_some_iff (name : FileName) (record : String) :
    name.record? = some record ↔ name.NamedFor record := by
  rw [record?_eq_some_iff_dropped]
  constructor
  · intro named
    obtain ⟨nonempty, stem, encoded, dropped⟩ := named
    refine ⟨nonempty, ?_⟩
    rcases (dropStructSuffix_eq_iff _ _).mp dropped with suffixed | ⟨plain, noSuffix⟩
    · left
      rw [encoded, ← String.ofList_toList (s := stem), suffixed]
      simp
    · right
      rw [encoded, String.toList_inj.mp plain]
      exact ⟨rfl, noSuffix⟩
  · intro named
    refine ⟨named.nonempty, ?_⟩
    rcases named.stem with suffixed | ⟨plain, noSuffix⟩
    · refine ⟨_, suffixed, (dropStructSuffix_eq_iff _ _).mpr (.inl ?_)⟩
      simp
    · exact ⟨record, plain, (dropStructSuffix_eq_iff _ _).mpr (.inr ⟨rfl, noSuffix⟩)⟩

end BinaryRecord
