import BinaryRecord.Proofs.FolderRecords
import Mathlib.Data.List.Perm.Subperm

namespace BinaryRecord

def plainFile (record extension : String) : FileName :=
  encodeText record ++ dot :: encodeText extension

def structFile (record extension : String) : FileName :=
  plainFile (record ++ String.ofList structSuffix) extension

def filesOf (record extension : String) : List FileName :=
  [plainFile record extension, structFile record extension]

theorem encodeText_append (front back : String) :
    encodeText (front ++ back) = encodeText front ++ encodeText back := by
  simp only [encodeText_eq, String.toList_append, List.flatMap_append]

theorem plainFile_lt_structFile (record extension : String) :
    plainFile record extension < structFile record extension := by
  rw [structFile, plainFile, plainFile, encodeText_append, List.append_assoc]
  apply List.append_left_lt
  exact List.cons_lt_cons_iff.mpr (.inl (by decide))

theorem perm_filesOf (record extension : String) (first second : FileName) (differ : first ≠ second)
    (firstInside : first ∈ filesOf record extension)
    (secondInside : second ∈ filesOf record extension) :
    [first, second].Perm (filesOf record extension) := by
  have nodup : [first, second].Nodup := by simp [differ]
  have inside : [first, second] ⊆ filesOf record extension :=
    List.cons_subset.mpr ⟨firstInside, List.cons_subset.mpr ⟨secondInside, List.nil_subset _⟩⟩
  exact (nodup.subperm inside).perm_of_length_le (Nat.le_refl 2)

section Folder

variable (selection : Selection) (entries : List Entry)

theorem name_mem_filesOf (file : RecordFile) (member : file ∈ selection.kept entries) :
    file.name ∈ filesOf file.record selection.extension := by
  obtain ⟨entry, -, isKept⟩ := List.mem_filterMap.mp member
  have keeps := (kept?_eq_some_iff selection entry file).mp isKept
  have whole := name_of_extension keeps.extension
  rw [keeps.name] at whole
  have stem := keeps.record.stem
  rw [keeps.name] at stem
  rcases stem with suffixed | ⟨plain, -⟩
  · rw [suffixed] at whole
    exact List.mem_cons_of_mem _ (List.mem_singleton.mpr whole)
  · rw [plain] at whole
    exact List.mem_cons.mpr (.inl whole)

variable (apart : (entries.map Entry.name).Nodup)

include apart

theorem names_differ_of_kept :
    (selection.kept entries).Pairwise fun first second => first.name ≠ second.name := by
  rw [List.Nodup, List.pairwise_map] at apart
  refine apart.filterMap _ fun first second differ file isFile other isOther same => differ ?_
  have keeps := (kept?_eq_some_iff selection first file).mp isFile
  have otherKeeps := (kept?_eq_some_iff selection second other).mp isOther
  rw [keeps.name, otherKeeps.name, same]

end Folder

def Selection.namesOf (selection : Selection) (entries : List Entry) (record : String) :
    List FileName :=
  ((selection.kept entries).filter fun file => file.record = record).map RecordFile.name

theorem namesOf_subperm (selection : Selection) (entries : List Entry)
    (apart : (entries.map Entry.name).Nodup) (record : String) :
    (selection.namesOf entries record).Subperm (filesOf record selection.extension) := by
  have nodup : (selection.namesOf entries record).Nodup :=
    List.pairwise_map.mpr ((names_differ_of_kept selection entries apart).filter _)
  apply nodup.subperm
  intro name member
  obtain ⟨file, present, rfl⟩ := List.mem_map.mp member
  obtain ⟨inside, same⟩ := List.mem_filter.mp present
  rw [← of_decide_eq_true same]
  exact name_mem_filesOf selection entries file inside

/-- The two least names of a record are its plain file and its struct file, since there are no
others. -/
theorem LeastDuplicate.names_eq (selection : Selection) (entries : List Entry)
    (apart : (entries.map Entry.name).Nodup) (record : String) (first second : FileName)
    (least : LeastDuplicate (selection.kept entries) record first second) :
    first = plainFile record selection.extension ∧ second = structFile record selection.extension ∧
      (selection.namesOf entries record).Perm (filesOf record selection.extension) := by
  have few := namesOf_subperm selection entries apart record
  obtain ⟨rest, perm, ordered, -⟩ := least.names
  change (selection.namesOf entries record).Perm (first :: second :: rest) at perm
  -- Two files are reported and a record has at most two, so no third is left.
  have none : rest = [] := by
    have most := few.length_le
    rw [perm.length_eq, List.length_cons, List.length_cons] at most
    exact List.length_eq_zero_iff.mp (by simpa [filesOf] using most)
  rw [none] at perm
  have all : [first, second].Perm (filesOf record selection.extension) :=
    (perm.symm.subperm.trans few).perm_of_length_le (Nat.le_refl 2)
  have less := plainFile_lt_structFile record selection.extension
  obtain ⟨plain, tails⟩ := least_of_perm all (List.forall_mem_singleton.mpr ordered)
    (List.forall_mem_singleton.mpr (List.le_of_lt less))
  have struct := List.singleton_inj.mp (List.perm_singleton.mp tails)
  exact ⟨plain, struct, perm.trans all⟩

theorem not_duplicate_readRecordFiles (folder : Path) (files : List RecordFile) (record : String)
    (first second : Path) :
    (readRecordFiles folder files).result ≠ .error (.duplicate record first second) := by
  induction files with
  | nil =>
      intro fails
      cases fails
  | cons file files ih =>
      rw [readRecordFiles]
      cases file.text with
      | error fault =>
          intro fails
          cases fails
      | ok text =>
          dsimp only
          cases later : (readRecordFiles folder files).result with
          | error fault =>
              intro fails
              cases fails
              exact ih later
          | ok sources =>
              intro fails
              cases fails

/-- A record has two files at most, the one that its name gives and the one with a struct suffix.
They are the two that a report of a duplicate names, in this order. -/
theorem duplicate_complete (selection : Selection) (folder : Path) (entries : List Entry)
    (apart : (entries.map Entry.name).Nodup) :
    ((selection.kept entries).Pairwise fun first second => first.record = second.record →
      [first.name, second.name].Perm (filesOf first.record selection.extension)) ∧
    (∀ record, (selection.namesOf entries record).length ≤ 2) ∧
    ∀ record first second,
      (loadRecords selection folder (.ok entries)).result =
        .error (.duplicate record first second) →
      first = folder.join (plainFile record selection.extension) ∧
        second = folder.join (structFile record selection.extension) ∧
        (selection.namesOf entries record).Perm (filesOf record selection.extension) := by
  refine ⟨?pairs, ?few, ?reported⟩
  case pairs =>
    apply (names_differ_of_kept selection entries apart).imp_of_mem
    intro first second member otherMember differ sameRecord
    have inside := name_mem_filesOf selection entries first member
    have otherInside := name_mem_filesOf selection entries second otherMember
    rw [← sameRecord] at otherInside
    exact perm_filesOf first.record selection.extension _ _ differ inside otherInside
  case few =>
    intro record
    exact (namesOf_subperm selection entries apart record).length_le
  case reported =>
    intro record first second reports
    by_cases nodup : ((selection.kept entries).map RecordFile.record).Nodup
    · have below := below_files_of_nodup selection entries nodup
      rw [loadRecords_of_below selection folder entries _ rfl below] at reports
      exact absurd reports (not_duplicate_readRecordFiles folder _ record first second)
    · obtain ⟨found, firstName, secondName, least, loads⟩ :=
        loadRecords_of_duplicate selection folder entries nodup
      rw [loads] at reports
      cases reports
      obtain ⟨plain, struct, all⟩ := least.names_eq selection entries apart
      exact ⟨by rw [plain], by rw [struct], all⟩

def suffixedEntries : List Entry :=
  [⟨[65, 95, 83, 84, 95, 83, 84, 46], .file (.ok "u8 a")⟩,
    ⟨[65, 95, 83, 84, 46], .file (.ok "u8 a")⟩,
    ⟨[65, 46], .file (.error .notText)⟩]

theorem duplicate_complete_sample :
    (suffixedEntries.map Entry.name).Nodup ∧
      (loadRecords ⟨"", []⟩ [100] (.ok suffixedEntries)).result =
        .error (.duplicate "A" (Path.join [100] [65, 46])
          (Path.join [100] [65, 95, 83, 84, 46])) ∧
      (Selection.namesOf ⟨"", []⟩ suffixedEntries "A").Perm [[65, 46], [65, 95, 83, 84, 46]] := by
  have apart : (suffixedEntries.map Entry.name).Nodup := by decide
  have kept : Selection.kept ⟨"", []⟩ suffixedEntries =
      [⟨"A_ST", [65, 95, 83, 84, 95, 83, 84, 46], .ok "u8 a"⟩,
        ⟨"A", [65, 95, 83, 84, 46], .ok "u8 a"⟩, ⟨"A", [65, 46], .error .notText⟩] := rfl
  have repeated : ¬ ((Selection.kept ⟨"", []⟩ suffixedEntries).map RecordFile.record).Nodup := by
    rw [kept]
    decide
  obtain ⟨record, first, second, least, loads⟩ :=
    loadRecords_of_duplicate ⟨"", []⟩ [100] suffixedEntries repeated
  have name : record = "A" := by
    have twice := least.twice
    rw [kept] at twice
    by_contra other
    simp only [List.map_cons, List.map_nil, List.count_cons, List.count_nil] at twice
    grind
  subst name
  obtain ⟨plain, struct, all⟩ := (duplicate_complete ⟨"", []⟩ [100] suffixedEntries apart).2.2
    "A" _ _ (congrArg Loaded.result loads)
  rw [loads, plain, struct]
  exact ⟨apart, rfl, all⟩

end BinaryRecord
