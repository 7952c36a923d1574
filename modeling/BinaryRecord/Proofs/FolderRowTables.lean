import BinaryRecord.Proofs.FileNames
import BinaryRecord.RowTable
import Mathlib.Data.List.Nodup
import Mathlib.Data.List.Perm.Subperm

namespace BinaryRecord

def tableFiles (entries : List Entry) : List TableFile := entries.filterMap Entry.table?

def TableFile.key (file : TableFile) : String := decodeLossy file.name.stem

def TableFile.row (file : TableFile) : String × RowTable :=
  match file.text with
  | .ok text => (file.key, RowTable.read text)
  | .error _ => (file.key, ∅)

def TableFile.Readable (file : TableFile) : Prop := ∃ text, file.text = .ok text

structure KeepsTables (folder : Path) (entries : List Entry) (tables : RowTables) : Prop where
  loads : (loadRowTables folder (.ok entries)).result = .ok tables
  size : tables.size = (tableFiles entries).length
  present : ∀ file ∈ tableFiles entries, ∀ text, file.text = .ok text →
    tables[file.key]? = some (RowTable.read text)
  anyOrder : ∀ others, others.Perm entries →
    ∃ same, (loadRowTables folder (.ok others)).result = .ok same ∧ same.toList = tables.toList

theorem row_of_reads {file : TableFile} {text : String} (reads : file.text = .ok text) :
    file.row = (file.key, RowTable.read text) := by
  rw [TableFile.row, reads]

theorem row_key (file : TableFile) : file.row.1 = file.key := by
  unfold TableFile.row
  split <;> rfl

theorem map_row_key (files : List TableFile) :
    (files.map TableFile.row).map Prod.fst = files.map TableFile.key := by
  rw [List.map_map]
  exact List.map_congr_left fun file _ => row_key file

theorem readTables_of_readable (folder : Path) (files : List TableFile) (tables : RowTables)
    (readable : ∀ file ∈ files, file.Readable) :
    readTables folder tables files = .ok (tables.insertMany (files.map TableFile.row)) := by
  induction files generalizing tables with
  | nil => rfl
  | cons file files ih =>
      rw [List.forall_mem_cons] at readable
      obtain ⟨⟨text, reads⟩, later⟩ := readable
      rw [readTables, reads, List.map_cons, row_of_reads reads, Std.TreeMap.insertMany_cons]
      exact ih _ later

theorem loadRowTables_of_readable (folder : Path) (entries : List Entry)
    (readable : ∀ file ∈ tableFiles entries, file.Readable) :
    (loadRowTables folder (.ok entries)).result =
      .ok (.ofList ((tableFiles entries).map TableFile.row)) := by
  have reads := readTables_of_readable folder (tableFiles entries) ∅ readable
  unfold tableFiles at reads
  simp only [loadRowTables, Listing.load, reads, Std.TreeMap.ofList_eq_insertMany_empty, tableFiles]

section Rows

variable (rows : List (String × RowTable))

theorem distinct_keys (apart : (rows.map Prod.fst).Nodup) :
    rows.Pairwise fun first second => ¬ compare first.1 second.1 = .eq := by
  rw [List.Nodup, List.pairwise_map] at apart
  exact apart.imp fun differ same => differ (Std.LawfulEqOrd.eq_of_compare same)

theorem size_eq_length_iff :
    (Std.TreeMap.ofList rows compare).size = rows.length ↔ (rows.map Prod.fst).Nodup := by
  constructor
  · intro full
    have distinct : (Std.TreeMap.ofList rows compare).keys.Nodup := by
      apply Std.TreeMap.distinct_keys.imp
      intro first second differ same
      exact differ (by rw [same]; exact Std.ReflOrd.compare_self)
    have inside : (Std.TreeMap.ofList rows compare).keys ⊆ rows.map Prod.fst := by
      intro key member
      exact List.contains_iff_mem.mp (Std.TreeMap.mem_ofList.mp (Std.TreeMap.mem_keys.mp member))
    -- As many distinct keys as rows leave no row without a key of its own.
    have perm : (Std.TreeMap.ofList rows compare).keys.Perm (rows.map Prod.fst) := by
      apply (distinct.subperm inside).perm_of_length_le
      rw [Std.TreeMap.length_keys, full, List.length_map]
    exact perm.nodup_iff.mp distinct
  · intro apart
    exact Std.TreeMap.size_ofList (distinct_keys rows apart)

theorem getElem?_of_mem (apart : (rows.map Prod.fst).Nodup) (row : String × RowTable)
    (member : row ∈ rows) : (Std.TreeMap.ofList rows compare)[row.1]? = some row.2 :=
  Std.TreeMap.getElem?_ofList_of_mem Std.ReflOrd.compare_self (distinct_keys rows apart) member

theorem getElem?_of_not_mem (key : String) (absent : key ∉ rows.map Prod.fst) :
    (Std.TreeMap.ofList rows compare)[key]? = none :=
  Std.TreeMap.getElem?_ofList_of_contains_eq_false (by simpa using absent)

theorem toList_of_perm (others : List (String × RowTable)) (perm : others.Perm rows)
    (apart : (rows.map Prod.fst).Nodup) :
    (Std.TreeMap.ofList others compare).toList = (Std.TreeMap.ofList rows compare).toList := by
  apply Std.TreeMap.Equiv.toList_eq
  apply Std.TreeMap.Equiv.of_forall_constGet?_eq
  intro key
  have otherApart : (others.map Prod.fst).Nodup := (perm.map Prod.fst).nodup_iff.mpr apart
  by_cases present : key ∈ rows.map Prod.fst
  · obtain ⟨row, member, rfl⟩ := List.mem_map.mp present
    rw [getElem?_of_mem rows apart row member,
      getElem?_of_mem others otherApart row (perm.mem_iff.mpr member)]
  · have otherAbsent : key ∉ others.map Prod.fst :=
      fun inside => present ((perm.map Prod.fst).mem_iff.mp inside)
    rw [getElem?_of_not_mem rows key present, getElem?_of_not_mem others key otherAbsent]

theorem getElem?_of_last (front back : List (String × RowTable)) (row : String × RowTable)
    (last : row.1 ∉ back.map Prod.fst) :
    (Std.TreeMap.ofList (front ++ row :: back) compare)[row.1]? = some row.2 := by
  obtain ⟨key, table⟩ := row
  rw [Std.TreeMap.ofList_eq_insertMany_empty, Std.TreeMap.insertMany_append,
    Std.TreeMap.insertMany_cons,
    Std.TreeMap.getElem?_insertMany_list_of_contains_eq_false (by simpa using last),
    Std.TreeMap.getElem?_insert_self]

end Rows

theorem keepsTables_iff (folder : Path) (entries : List Entry)
    (readable : ∀ file ∈ tableFiles entries, file.Readable) :
    KeepsTables folder entries (.ofList ((tableFiles entries).map TableFile.row)) ↔
      ((tableFiles entries).map TableFile.key).Nodup := by
  rw [← map_row_key]
  constructor
  · intro keeps
    rw [← size_eq_length_iff, keeps.size, List.length_map]
  · intro apart
    refine ⟨loadRowTables_of_readable folder entries readable, ?_, ?_, ?_⟩
    · rw [(size_eq_length_iff _).mpr apart, List.length_map]
    · intro file member text reads
      have present := getElem?_of_mem _ apart file.row (List.mem_map_of_mem member)
      rwa [row_of_reads reads] at present
    · intro others perm
      have files : (tableFiles others).Perm (tableFiles entries) := perm.filterMap _
      refine ⟨_, loadRowTables_of_readable folder others fun file member =>
        readable file (files.mem_iff.mp member), toList_of_perm _ _ (files.map _) apart⟩

theorem table?_eq_some {entry : Entry} {file : TableFile} (isTable : entry.table? = some file) :
    file.name = entry.name ∧ file.name.extension? = some tableExtension := by
  unfold Entry.table? at isTable
  split at isTable
  · next extension =>
    obtain ⟨text, -, rfl⟩ := Option.map_eq_some_iff.mp isTable
    exact ⟨rfl, extension⟩
  · cases isTable

/-- Only stems that are no text can show alike. -/
theorem keys_nodup_of_text (entries : List Entry) (apart : (entries.map Entry.name).Nodup)
    (text : ∀ file ∈ tableFiles entries, ∃ stem, file.name.stem = encodeText stem) :
    ((tableFiles entries).map TableFile.key).Nodup := by
  have names : (tableFiles entries).Pairwise fun first second => first.name ≠ second.name := by
    rw [List.Nodup, List.pairwise_map] at apart
    refine apart.filterMap _ fun first second differ file isFile other isOther same => differ ?_
    rw [← (table?_eq_some isFile).1, ← (table?_eq_some isOther).1, same]
  rw [List.Nodup, List.pairwise_map]
  apply names.imp_of_mem
  intro first second member otherMember differ sameKey
  obtain ⟨stem, isStem⟩ := text first member
  obtain ⟨other, isOther⟩ := text second otherMember
  rw [TableFile.key, TableFile.key, isStem, isOther, decodeLossy_encodeText,
    decodeLossy_encodeText] at sameKey
  obtain ⟨entry, -, isFile⟩ := List.mem_filterMap.mp member
  obtain ⟨otherEntry, -, isOtherFile⟩ := List.mem_filterMap.mp otherMember
  apply differ
  calc first.name = first.name.stem ++ dot :: tableExtension :=
        name_of_extension (table?_eq_some isFile).2
    _ = second.name.stem ++ dot :: tableExtension := by rw [isStem, isOther, sameKey]
    _ = second.name := (name_of_extension (table?_eq_some isOtherFile).2).symm

/-- Of the files with one key the last one listed gives the table, and the others are lost. Names
that are text have keys of their own. -/
theorem loadRowTables_keeps_iff (folder : Path) (entries : List Entry)
    (readable : ∀ file ∈ tableFiles entries, file.Readable) :
    ∃ tables, (loadRowTables folder (.ok entries)).result = .ok tables ∧
      (∀ key ∉ (tableFiles entries).map TableFile.key, tables[key]? = none) ∧
      (∀ front file back text, tableFiles entries = front ++ file :: back →
        file.key ∉ back.map TableFile.key → file.text = .ok text →
        tables[file.key]? = some (RowTable.read text)) ∧
      (KeepsTables folder entries tables ↔ ((tableFiles entries).map TableFile.key).Nodup) ∧
      ((entries.map Entry.name).Nodup →
        (∀ file ∈ tableFiles entries, ∃ stem, file.name.stem = encodeText stem) →
        KeepsTables folder entries tables) := by
  have keeps := keepsTables_iff folder entries readable
  refine ⟨_, loadRowTables_of_readable folder entries readable, ?absent, ?last, keeps,
    fun apart text => keeps.mpr (keys_nodup_of_text entries apart text)⟩
  case absent =>
    intro key absent
    rw [← map_row_key] at absent
    exact getElem?_of_not_mem _ key absent
  case last =>
    intro front file back text files last reads
    have row := row_of_reads reads
    rw [← map_row_key, ← row_key] at last
    have stays := getElem?_of_last (front.map TableFile.row) (back.map TableFile.row) file.row last
    rw [files, List.map_append, List.map_cons]
    rwa [row] at stays ⊢

theorem loadRowTables_keeps_sample :
    ∃ tables, KeepsTables [100] [⟨[97, 46, 116, 120, 116], .file (.ok "1 Sword")⟩,
      ⟨[98, 46, 116, 120, 116], .file (.ok "2 Bow")⟩] tables := by
  obtain ⟨tables, -, -, -, keeps, -⟩ := loadRowTables_keeps_iff [100]
    [⟨[97, 46, 116, 120, 116], .file (.ok "1 Sword")⟩,
      ⟨[98, 46, 116, 120, 116], .file (.ok "2 Bow")⟩]
    (List.forall_mem_cons.mpr ⟨⟨_, rfl⟩, List.forall_mem_singleton.mpr ⟨_, rfl⟩⟩)
  exact ⟨tables, keeps.mpr (by decide +kernel)⟩

/-- A file named U+FFFD, and one whose name is a byte that shows as U+FFFD. -/
def collidingEntries : List Entry :=
  [⟨[0xEF, 0xBF, 0xBD, 46, 116, 120, 116], .file (.ok "1 Sword")⟩,
    ⟨[0xFF, 46, 116, 120, 116], .file (.ok "1 Sword")⟩]

theorem loadRowTables_keeps_fails :
    (∀ file ∈ tableFiles collidingEntries, file.Readable) ∧
      ¬ ∃ tables, KeepsTables [100] collidingEntries tables := by
  have readable : ∀ file ∈ tableFiles collidingEntries, file.Readable :=
    List.forall_mem_cons.mpr ⟨⟨_, rfl⟩, List.forall_mem_singleton.mpr ⟨_, rfl⟩⟩
  refine ⟨readable, ?_⟩
  intro kept
  obtain ⟨tables, keeps⟩ := kept
  have loads := loadRowTables_of_readable [100] collidingEntries readable
  cases Except.ok.inj (keeps.loads.symm.trans loads)
  have apart := (keepsTables_iff [100] collidingEntries readable).mp keeps
  exact absurd apart (by decide +kernel)

end BinaryRecord
