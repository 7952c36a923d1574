import BinaryRecord.Proofs.RowTables
import BinaryRecord.Text.Trimming

namespace BinaryRecord

structure IsRowName (name : String) : Prop where
  nonempty : name ≠ ""
  trimmed : IsTrimmed name.toList
  noBreak : '\n' ∉ name.toList

instance (name : String) : Decidable (IsRowName name) :=
  decidable_of_iff (name ≠ "" ∧ IsTrimmed name.toList ∧ '\n' ∉ name.toList)
    ⟨fun all => ⟨all.1, all.2.1, all.2.2⟩, fun isName => ⟨isName.nonempty, isName.trimmed,
      isName.noBreak⟩⟩

structure IsBareRow (line digits gap : List Char) (id : Nat) : Prop where
  whole : line = digits ++ gap
  nonempty : digits ≠ []
  isId : IsRowId digits id
  blank : ∀ c ∈ gap, isBlank c = true

section Bare

variable {line digits gap : List Char} {id : Nat} (bare : IsBareRow line digits gap id)

include bare

theorem IsBareRow.digitsRun : IsRun isDecimal digits :=
  IsRun.mono ⟨bare.nonempty, bare.isId.ascii⟩ isDecimal_of_isDigit

theorem IsBareRow.digitsEnd : Stops isDecimal gap := by
  intro c first
  exact isDecimal_of_isBlank c (bare.blank c (List.mem_of_head? first))

theorem IsBareRow.parts_eq {otherDigits otherGap rest : List Char}
    (parts : RowParts line otherDigits otherGap rest) :
    digits = otherDigits ∧ gap = otherGap ++ rest :=
  append_inj_of_stops isDecimal _ _ _ _ bare.digitsRun.all parts.digitsRun.all bare.digitsEnd
    parts.digitsEnd (bare.whole.symm.trans parts.whole)

theorem IsBareRow.rest_eq_nil {otherDigits otherGap rest : List Char}
    (parts : RowParts line otherDigits otherGap rest) : rest = [] := by
  have same := (bare.parts_eq parts).2
  cases rest with
  | nil => rfl
  | cons c rest =>
      have blank := bare.blank c (by simp [same])
      rw [parts.gapEnd c rfl] at blank
      cases blank

/-- Such a line is a row from two characters of white space on. -/
theorem IsBareRow.isRow_iff (other : Nat) (name : String) :
    IsRow line other name ↔ other = id ∧ name = "" ∧ 2 ≤ gap.length := by
  constructor
  · intro isRow
    cases isRow with
    | named parts isId nonempty => exact absurd (bare.rest_eq_nil parts) nonempty
    | unnamed parts isId wide =>
        obtain ⟨rfl, same⟩ := bare.parts_eq parts
        rw [List.append_nil] at same
        exact ⟨isId.value.symm.trans bare.isId.value, rfl, same ▸ wide⟩
  · intro unnamed
    obtain ⟨rfl, rfl, wide⟩ := unnamed
    have gapRun : IsRun isBlank gap := ⟨List.length_pos_iff.mp (by omega), bare.blank⟩
    have whole : line = digits ++ (gap ++ []) := by rw [List.append_nil, bare.whole]
    have digitsEnd : Stops isDecimal (gap ++ []) := by
      rw [List.append_nil]
      exact bare.digitsEnd
    exact .unnamed ⟨whole, bare.digitsRun, digitsEnd, gapRun, stops_nil isBlank⟩ bare.isId wide

theorem IsBareRow.readRow?_eq_none_iff (noBreak : '\n' ∉ line) :
    readRow? line = none ↔ gap.length ≤ 1 := by
  constructor
  · intro unread
    by_contra wide
    have isRow := (bare.isRow_iff id "").mpr ⟨rfl, rfl, by omega⟩
    have read := (readRow?_eq_some_iff line noBreak id "").mpr isRow
    rw [unread] at read
    cases read
  · intro narrow
    rw [Option.eq_none_iff_forall_ne_some]
    intro row read
    have isRow := (readRow?_eq_some_iff line noBreak row.1 row.2).mp read
    have wide := ((bare.isRow_iff row.1 row.2).mp isRow).2.2
    omega

end Bare

section Row

variable {line : List Char} {id : Nat} {name : String} (isRow : IsRow line id name)

include isRow

theorem IsRow.name_form (noBreak : '\n' ∉ line) :
    IsTrimmed name.toList ∧ '\n' ∉ name.toList := by
  cases isRow with
  | named parts isId nonempty =>
      rw [String.toList_ofList]
      refine ⟨isTrimmed_trimEnd _ parts.gapEnd, fun lineFeed => noBreak ?_⟩
      rw [parts.whole]
      exact List.mem_append_right _ (List.mem_append_right _ (mem_of_mem_trimEnd _ _ lineFeed))
  | unnamed parts isId wide => decide

theorem IsRow.exists_bare (unnamed : name = "") :
    ∃ digits gap, IsBareRow line digits gap id ∧ 2 ≤ gap.length := by
  cases isRow with
  | @named digits gap rest parts isId nonempty =>
      obtain ⟨c, tail, rfl⟩ := List.exists_cons_of_ne_nil nonempty
      rw [← String.ofList_nil, String.ofList_inj, trimEnd_eq_rdropWhile,
        List.rdropWhile_eq_nil_iff] at unnamed
      have blank := unnamed c (by simp)
      rw [parts.gapEnd c rfl] at blank
      cases blank
  | @unnamed digits gap parts isId wide =>
      have whole := parts.whole
      rw [List.append_nil] at whole
      exact ⟨digits, gap, ⟨whole, parts.digitsRun.nonempty, isId, parts.gapRun.all⟩, wide⟩

end Row

theorem exists_row_of_read (text : String) (id : Nat) (name : String)
    (found : (RowTable.read text)[id]? = some name) :
    ∃ line ∈ lines text.toList, IsRow line id name := by
  rw [RowTable.read, readRows, getElem?_insertRows] at found
  obtain ⟨line, member, named⟩ := List.exists_of_findSome?_eq_some found
  have inside := List.mem_reverse.mp member
  have noBreak := not_newline_of_mem_lines text.toList line inside
  exact ⟨line, inside, (rowName?_eq_some_iff id line noBreak name).mp named⟩

/-- No name in a table has white space around it or a line feed in it. All of them are names, and
all lines without a name are left out, where no such line has more than one character of white
space. -/
theorem read_rowNames_iff (text : String) :
    (∀ (id : Nat) (name : String), (RowTable.read text)[id]? = some name →
      IsTrimmed name.toList ∧ '\n' ∉ name.toList) ∧
    (((∀ (id : Nat) (name : String), (RowTable.read text)[id]? = some name → IsRowName name) ∧
        ∀ line ∈ lines text.toList, ∀ digits gap id, IsBareRow line digits gap id →
          readRow? line = none) ↔
      ∀ line ∈ lines text.toList, ∀ digits gap id, IsBareRow line digits gap id →
        gap.length ≤ 1) := by
  have noBreak := not_newline_of_mem_lines text.toList
  have form : ∀ (id : Nat) (name : String), (RowTable.read text)[id]? = some name →
      IsTrimmed name.toList ∧ '\n' ∉ name.toList := by
    intro id name found
    obtain ⟨line, member, isRow⟩ := exists_row_of_read text id name found
    exact isRow.name_form (noBreak line member)
  refine ⟨form, ?_, ?_⟩
  · intro named line member digits gap id bare
    have unread := named.2 line member digits gap id bare
    exact (bare.readRow?_eq_none_iff (noBreak line member)).mp unread
  · intro narrow
    constructor
    · intro id name found
      obtain ⟨line, member, isRow⟩ := exists_row_of_read text id name found
      refine ⟨?_, (form id name found).1, (form id name found).2⟩
      intro unnamed
      obtain ⟨digits, gap, bare, wide⟩ := isRow.exists_bare unnamed
      have most := narrow line member digits gap id bare
      omega
    · intro line member digits gap id bare
      have most := narrow line member digits gap id bare
      exact (bare.readRow?_eq_none_iff (noBreak line member)).mpr most

theorem read_rowNames_fails :
    (RowTable.read "9  ")[9]? = some "" ∧ ¬ IsRowName "" ∧
      "9  ".toList ∈ lines "9  ".toList ∧ IsBareRow "9  ".toList ['9'] [' ', ' '] 9 ∧
      readRow? "9  ".toList = some (9, "") := by
  have bare : IsBareRow "9  ".toList ['9'] [' ', ' '] 9 :=
    ⟨by decide, by decide, ⟨List.all_eq_true.mp (by decide), by decide, by decide⟩,
      List.all_eq_true.mp (by decide)⟩
  exact ⟨by decide +kernel, by decide, by decide, bare, by decide +kernel⟩

end BinaryRecord
