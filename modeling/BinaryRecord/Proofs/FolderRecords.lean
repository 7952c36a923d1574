import BinaryRecord.Proofs.FileNames
import BinaryRecord.Proofs.RecordFiles
import Mathlib.Data.List.Forall2

namespace BinaryRecord

structure Selection.Keeps (selection : Selection) (entry : Entry) (file : RecordFile) : Prop where
  name : entry.name = file.name
  content : entry.content = .file file.text
  extension : entry.name.extension? = some (encodeText selection.extension)
  record : entry.name.NamedFor file.record
  wanted : ∀ other ∈ selection.skip, sameIgnoringCase file.record other = false

def Selection.kept? (selection : Selection) (entry : Entry) : Option RecordFile :=
  (selection.judge entry).file?

def Selection.kept (selection : Selection) (entries : List Entry) : List RecordFile :=
  entries.filterMap selection.kept?

theorem kept?_eq_some_iff (selection : Selection) (entry : Entry) (file : RecordFile) :
    selection.kept? entry = some file ↔ selection.Keeps entry file := by
  obtain ⟨name, content⟩ := entry
  unfold Selection.kept? Selection.judge
  constructor
  · intro kept
    dsimp only at kept
    split at kept
    · cases kept
    next text =>
    split at kept
    · next extension =>
      split at kept
      · cases kept
      next record named =>
      split at kept
      · cases kept
      next wanted =>
      obtain rfl := Option.some.inj kept
      refine ⟨rfl, rfl, extension, (record?_eq_some_iff _ _).mp named, ?_⟩
      simpa using wanted
    · cases kept
  · intro keeps
    have wanted : selection.skip.any (sameIgnoringCase file.record) = false :=
      List.any_eq_false.mpr fun other skipped => by simp [keeps.wanted other skipped]
    obtain rfl : name = file.name := keeps.name
    obtain rfl : content = .file file.text := keeps.content
    have named := (record?_eq_some_iff _ _).mpr keeps.record
    have extension := keeps.extension
    dsimp only at named extension
    simp [extension, named, wanted, Verdict.file?]

theorem perm_files (selection : Selection) (entries : List Entry) :
    (selection.files entries).Perm (selection.kept entries) :=
  List.mergeSort_perm _ _

theorem sorted_files (selection : Selection) (entries : List Entry) :
    (selection.files entries).Pairwise RecordFile.UpTo := by
  have trans (a b c : RecordFile) (left : a.before b) (right : b.before c) : a.before c :=
    (before_iff a c).mpr (((before_iff a b).mp left).trans ((before_iff b c).mp right))
  have total (a b : RecordFile) : a.before b || b.before a := by
    simpa [before_iff] using upTo_total a b
  exact (List.pairwise_mergeSort trans total (selection.kept entries)).imp
    fun {a b} before => (before_iff a b).mp before

structure RecordFile.Gives (file : RecordFile) (source : RecordSource) : Prop where
  name : source.name = file.record
  definitions : ∃ text, file.text = .ok text ∧ source.definitions = definitionLines text

structure FirstFailing (files : List RecordFile) (file : RecordFile) (fault : StorageFault) :
    Prop where
  member : file ∈ files
  failing : file.text = .error fault
  first : ∀ other ∈ files, ∀ reason, other.text = .error reason → file.UpTo other

theorem readRecordFiles_of_readable (folder : Path) (files : List RecordFile)
    (readable : ∀ file ∈ files, ∃ text, file.text = .ok text) :
    ∃ sources, (readRecordFiles folder files).result = .ok sources ∧
      List.Forall₂ RecordFile.Gives files sources := by
  induction files with
  | nil => exact ⟨[], rfl, .nil⟩
  | cons file files ih =>
      rw [List.forall_mem_cons] at readable
      obtain ⟨⟨text, readsText⟩, later⟩ := readable
      obtain ⟨sources, result, gives⟩ := ih later
      refine ⟨⟨file.record, definitionLines text⟩ :: sources, ?_, .cons ⟨rfl, ?_⟩ gives⟩
      · simp [readRecordFiles, readsText, result, Except.map]
      · exact ⟨text, readsText, rfl⟩

theorem readRecordFiles_of_failing (folder : Path) (files : List RecordFile)
    (sorted : files.Pairwise RecordFile.UpTo)
    (failing : ∃ file ∈ files, ∃ fault, file.text = .error fault) :
    ∃ file fault, FirstFailing files file fault ∧
      (readRecordFiles folder files).result =
        .error (.unreadable (folder.join file.name) fault) := by
  induction files with
  | nil => simp at failing
  | cons file files ih =>
      rw [List.pairwise_cons] at sorted
      cases reads : file.text with
      | error fault =>
          refine ⟨file, fault, ⟨by simp, reads, ?_⟩, by simp [readRecordFiles, reads]⟩
          intro other member reason _
          rcases List.mem_cons.mp member with rfl | inside
          · exact (upTo_total other other).elim id id
          · exact sorted.1 other inside
      | ok text =>
          have later : ∃ file ∈ files, ∃ fault, file.text = .error fault := by
            simpa [reads] using failing
          obtain ⟨bad, fault, found, result⟩ := ih sorted.2 later
          refine ⟨bad, fault, ⟨by simp [found.member], found.failing, ?_⟩, ?_⟩
          · intro other member reason fails
            rcases List.mem_cons.mp member with rfl | inside
            · rw [reads] at fails
              cases fails
            · exact found.first other inside reason fails
          · simp [readRecordFiles, reads, result, Except.map]

theorem readRecordFiles_cons_iff (folder : Path) (file : RecordFile) (files : List RecordFile)
    (sources : List RecordSource) :
    (readRecordFiles folder (file :: files)).result = .ok sources ↔
      ∃ text later, file.text = .ok text ∧ (readRecordFiles folder files).result = .ok later ∧
        sources = ⟨file.record, definitionLines text⟩ :: later := by
  rw [readRecordFiles]
  cases file.text with
  | error fault => simp
  | ok text =>
      dsimp only
      generalize (readRecordFiles folder files).result = result
      cases result with
      | error fault => simp [Except.map]
      | ok later => simp [Except.map, eq_comm]

theorem names_of_readRecordFiles (folder : Path) (files : List RecordFile)
    (sources : List RecordSource) (reads : (readRecordFiles folder files).result = .ok sources) :
    sources.map RecordSource.name = files.map RecordFile.record := by
  induction files generalizing sources with
  | nil =>
      cases Except.ok.inj reads
      rfl
  | cons file files ih =>
      obtain ⟨text, later, -, laterReads, rfl⟩ := (readRecordFiles_cons_iff _ _ _ _).mp reads
      rw [List.map_cons, List.map_cons, ih later laterReads]

theorem readRecordFiles_filter (folder : Path) (wanted : String → Bool) (files : List RecordFile)
    (sources : List RecordSource) (reads : (readRecordFiles folder files).result = .ok sources) :
    (readRecordFiles folder (files.filter fun file => wanted file.record)).result =
      .ok (sources.filter fun source => wanted source.name) := by
  induction files generalizing sources with
  | nil =>
      cases Except.ok.inj reads
      rfl
  | cons file files ih =>
      obtain ⟨text, later, readsText, laterReads, rfl⟩ :=
        (readRecordFiles_cons_iff _ _ _ _).mp reads
      have laterFilter := ih later laterReads
      cases isWanted : wanted file.record with
      | true =>
          simp only [List.filter_cons, isWanted, if_true]
          rw [readRecordFiles_cons_iff]
          exact ⟨text, _, readsText, laterFilter, rfl⟩
      | false =>
          simp only [List.filter_cons, isWanted]
          exact laterFilter

theorem files_eq_of_perm (selection : Selection) (entries : List Entry) (files : List RecordFile)
    (perm : (selection.kept entries).Perm files) (apart : files.Pairwise RecordFile.Below) :
    selection.files entries = files := by
  have samePerm := (perm_files selection entries).trans perm
  have nodup : ((selection.files entries).map RecordFile.record).Nodup :=
    (samePerm.map _).nodup_iff.mpr (nodup_of_below files apart)
  have sorted := below_of_nodup _ (sorted_files selection entries) nodup
  apply List.Perm.eq_of_pairwise _ sorted apart samePerm
  intro first second _ _ below above
  exact absurd above (List.lt_asymm below)

section Loading

variable (selection : Selection) (folder : Path) (entries : List Entry)

theorem below_files_of_nodup (nodup : ((selection.kept entries).map RecordFile.record).Nodup) :
    (selection.files entries).Pairwise RecordFile.Below := by
  have perm := (perm_files selection entries).map RecordFile.record
  exact below_of_nodup _ (sorted_files selection entries) (perm.nodup_iff.mpr nodup)

theorem loadRecords_of_duplicate
    (repeated : ¬ ((selection.kept entries).map RecordFile.record).Nodup) :
    ∃ record first second, LeastDuplicate (selection.kept entries) record first second ∧
      loadRecords selection folder (.ok entries) =
        ⟨entries.filterMap (selection.event? folder),
          .error (.duplicate record (folder.join first) (folder.join second))⟩ := by
  have perm := perm_files selection entries
  have sorted := sorted_files selection entries
  cases found : duplicate? folder (selection.files entries) with
  | none =>
      have apart := apart_of_duplicate?_none folder _ sorted found
      exact absurd ((perm.map _).nodup_iff.mp (nodup_of_below _ apart)) repeated
  | some fault =>
      obtain ⟨front, rest, first, second, neighbours, rfl⟩ :=
        exists_firstNeighbours folder _ sorted fault found
      refine ⟨_, _, _, (neighbours.leastDuplicate sorted).of_perm perm, ?_⟩
      simp [loadRecords, Listing.load, loadRecordFiles, found, Loaded.prepend]

theorem loadRecords_of_below (files : List RecordFile) (same : selection.files entries = files)
    (apart : files.Pairwise RecordFile.Below) :
    (loadRecords selection folder (.ok entries)).result =
      (readRecordFiles folder files).result := by
  simp only [loadRecords, Listing.load, loadRecordFiles, same, Loaded.prepend,
    duplicate?_of_below folder files apart]
  cases (readRecordFiles folder files).result <;> rfl

theorem below_files_of_loads (sources : List RecordSource)
    (loads : (loadRecords selection folder (.ok entries)).result = .ok sources) :
    (selection.files entries).Pairwise RecordFile.Below := by
  apply below_files_of_nodup
  by_contra repeated
  obtain ⟨record, first, second, -, fails⟩ :=
    loadRecords_of_duplicate selection folder entries repeated
  rw [fails] at loads
  cases loads

end Loading

theorem loadRecords_result_of_perm (selection : Selection) (folder : Path)
    (entries others : List Entry) (perm : (selection.kept others).Perm (selection.kept entries)) :
    (loadRecords selection folder (.ok others)).result =
      (loadRecords selection folder (.ok entries)).result := by
  by_cases nodup : ((selection.kept entries).map RecordFile.record).Nodup
  · have apart := below_files_of_nodup selection entries nodup
    have same := files_eq_of_perm selection others _
      (perm.trans (perm_files selection entries).symm) apart
    rw [loadRecords_of_below selection folder others _ same apart,
      loadRecords_of_below selection folder entries _ rfl apart]
  · have otherRepeated : ¬ ((selection.kept others).map RecordFile.record).Nodup :=
      fun otherNodup => nodup ((perm.map _).nodup_iff.mp otherNodup)
    obtain ⟨record, first, second, least, loads⟩ :=
      loadRecords_of_duplicate selection folder entries nodup
    obtain ⟨otherRecord, otherFirst, otherSecond, otherLeast, otherLoads⟩ :=
      loadRecords_of_duplicate selection folder others otherRepeated
    obtain ⟨rfl, rfl, rfl⟩ := (otherLeast.of_perm perm).unique least
    rw [loads, otherLoads]

theorem read_not_mem_events (selection : Selection) (folder : Path) (entries : List Entry)
    (record : String) (definitions : Nat) :
    Event.read record definitions ∉ entries.filterMap (selection.event? folder) := by
  intro present
  obtain ⟨entry, -, isEvent⟩ := List.mem_filterMap.mp present
  unfold Selection.event? at isEvent
  split at isEvent <;> cases isEvent

/-- Records that several files define come before files that cannot be read. Entries that are not
kept do not matter, and neither does the order of the entries. -/
theorem loadRecords_exact (selection : Selection) (folder : Path) (entries : List Entry) :
    (∀ entry file, selection.kept? entry = some file ↔ selection.Keeps entry file) ∧
    (¬ ((selection.kept entries).map RecordFile.record).Nodup →
      ∃ record first second, LeastDuplicate (selection.kept entries) record first second ∧
        (loadRecords selection folder (.ok entries)).result =
          .error (.duplicate record (folder.join first) (folder.join second)) ∧
        ∀ name definitions,
          .read name definitions ∉ (loadRecords selection folder (.ok entries)).events) ∧
    (((selection.kept entries).map RecordFile.record).Nodup →
      (∃ file ∈ selection.kept entries, ∃ fault, file.text = .error fault) →
      ∃ file fault, FirstFailing (selection.kept entries) file fault ∧
        (loadRecords selection folder (.ok entries)).result =
          .error (.unreadable (folder.join file.name) fault)) ∧
    (((selection.kept entries).map RecordFile.record).Nodup →
      (∀ file ∈ selection.kept entries, ∃ text, file.text = .ok text) →
      ∃ files sources, (loadRecords selection folder (.ok entries)).result = .ok sources ∧
        files.Perm (selection.kept entries) ∧ List.Forall₂ RecordFile.Gives files sources ∧
        sources.Pairwise fun first second => encodeText first.name < encodeText second.name) ∧
    ∀ others, (selection.kept others).Perm (selection.kept entries) →
      (loadRecords selection folder (.ok others)).result =
        (loadRecords selection folder (.ok entries)).result := by
  have perm := perm_files selection entries
  refine ⟨kept?_eq_some_iff selection, ?repeated, ?failing, ?readable,
    fun others => loadRecords_result_of_perm selection folder entries others⟩
  case repeated =>
    intro repeated
    obtain ⟨record, first, second, least, loads⟩ :=
      loadRecords_of_duplicate selection folder entries repeated
    rw [loads]
    exact ⟨record, first, second, least, rfl, read_not_mem_events selection folder entries⟩
  case failing =>
    intro nodup failing
    have apart := below_files_of_nodup selection entries nodup
    have failing : ∃ file ∈ selection.files entries, ∃ fault, file.text = .error fault := by
      obtain ⟨file, inside, fails⟩ := failing
      exact ⟨file, perm.mem_iff.mpr inside, fails⟩
    obtain ⟨file, fault, found, result⟩ :=
      readRecordFiles_of_failing folder _ (sorted_files selection entries) failing
    rw [loadRecords_of_below selection folder entries _ rfl apart]
    refine ⟨file, fault, ⟨perm.mem_iff.mp found.member, found.failing, ?_⟩, result⟩
    exact fun other inside => found.first other (perm.mem_iff.mpr inside)
  case readable =>
    intro nodup readable
    have apart := below_files_of_nodup selection entries nodup
    obtain ⟨sources, result, gives⟩ := readRecordFiles_of_readable folder
      (selection.files entries) fun file inside => readable file (perm.mem_iff.mp inside)
    rw [loadRecords_of_below selection folder entries _ rfl apart]
    refine ⟨_, sources, result, perm, gives, ?_⟩
    have records : (sources.map RecordSource.name).Pairwise
        fun first second => encodeText first < encodeText second := by
      rw [names_of_readRecordFiles folder _ sources result]
      exact List.pairwise_map.mpr apart
    rwa [List.pairwise_map] at records

def repeatingEntries : List Entry :=
  [⟨[66, 46, 100, 101, 102], .folder⟩,
    ⟨[65, 95, 83, 84, 46, 100, 101, 102], .file (.error .notText)⟩,
    ⟨[65, 46, 116, 120, 116], .file (.error .notText)⟩,
    ⟨[65, 46, 100, 101, 102], .file (.ok "u8 a")⟩]

theorem loadRecords_exact_sample :
    (loadRecords .default [100] (.ok repeatingEntries)).result =
      .error (.duplicate "A" (Path.join [100] [65, 46, 100, 101, 102])
        (Path.join [100] [65, 95, 83, 84, 46, 100, 101, 102])) := by
  have kept : Selection.default.kept repeatingEntries =
      [⟨"A", [65, 95, 83, 84, 46, 100, 101, 102], .error .notText⟩,
        ⟨"A", [65, 46, 100, 101, 102], .ok "u8 a"⟩] := rfl
  have expected : LeastDuplicate (Selection.default.kept repeatingEntries) "A"
      [65, 46, 100, 101, 102] [65, 95, 83, 84, 46, 100, 101, 102] := by
    rw [kept]
    constructor
    · intro other twice
      by_cases same : other = "A"
      · rw [same]
        exact List.le_refl _
      · simp [Ne.symm same] at twice
    · exact ⟨[], List.Perm.swap _ _ _, by decide, by simp⟩
  obtain ⟨-, repeated, -⟩ := loadRecords_exact .default [100] repeatingEntries
  obtain ⟨record, first, second, least, result, -⟩ := repeated (by rw [kept]; simp)
  obtain ⟨rfl, rfl, rfl⟩ := least.unique expected
  exact result

end BinaryRecord
