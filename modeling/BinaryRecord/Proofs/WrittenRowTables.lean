import BinaryRecord.Definition.Reading
import BinaryRecord.Proofs.RowNames

namespace BinaryRecord

/-- A line that cannot be a row, since no id can stand at its start. -/
structure IsRemark (text : String) : Prop where
  noBreak : '\n' ∉ text.toList
  noDigit : Stops Char.isDigit text.toList

instance (text : String) : Decidable (IsRemark text) :=
  decidable_of_iff ('\n' ∉ text.toList ∧ Stops Char.isDigit text.toList)
    ⟨fun both => ⟨both.1, both.2⟩, fun isRemark => ⟨isRemark.noBreak, isRemark.noDigit⟩⟩

/-- A written line. A row has an id, with any number of zeros in front, spaces and tabs, and a
name. -/
inductive TableLine
  | row (zeros id : Nat) (gap : List Char) (name : String) (gapRun : IsRun isGap gap)
  | remark (text : String) (isRemark : IsRemark text)

def TableLine.chars : TableLine → List Char
  | .row zeros id gap name _ =>
      (List.replicate zeros '0' ++ (decimal id).toList) ++ (gap ++ name.toList)
  | .remark text _ => text.toList

def TableLine.row? : TableLine → Option (Nat × String)
  | .row _ id _ name _ => some (id, name)
  | .remark _ _ => none

def writeLines (last : String) : List (TableLine × LineEnd) → String
  | [] => last
  | (line, ending) :: written =>
      String.ofList line.chars ++ (ending.text ++ writeLines last written)

def writtenRows (written : List (TableLine × LineEnd)) : List (Nat × String) :=
  written.filterMap fun line => line.1.row?

structure IsWritable (row : Nat × String) : Prop where
  fits : row.1 < wordLimit
  isName : IsRowName row.2

instance (row : Nat × String) : Decidable (IsWritable row) :=
  decidable_of_iff (row.1 < wordLimit ∧ IsRowName row.2)
    ⟨fun both => ⟨both.1, both.2⟩, fun writable => ⟨writable.fits, writable.isName⟩⟩

theorem IsRow.exists_digits {line : List Char} {id : Nat} {name : String}
    (isRow : IsRow line id name) :
    ∃ digits rest, line = digits ++ rest ∧ IsRun Char.isDigit digits := by
  cases isRow with
  | @named digits gap rest parts isId nonempty =>
      exact ⟨digits, gap ++ rest, parts.whole, parts.digitsRun.nonempty, isId.ascii⟩
  | @unnamed digits gap parts isId wide =>
      exact ⟨digits, gap ++ [], parts.whole, parts.digitsRun.nonempty, isId.ascii⟩

theorem IsRemark.readRow?_eq_none {text : String} (isRemark : IsRemark text) (line : List Char)
    (front : line <+: text.toList) : readRow? line = none := by
  obtain ⟨back, whole⟩ := front
  rw [Option.eq_none_iff_forall_ne_some]
  intro row read
  have noBreak : '\n' ∉ line := by
    intro inside
    exact isRemark.noBreak (whole ▸ List.mem_append_left back inside)
  have isRow := (readRow?_eq_some_iff line noBreak row.1 row.2).mp read
  obtain ⟨digits, rest, rfl, digitsRun⟩ := isRow.exists_digits
  have stops := isRemark.noDigit
  rw [← whole, List.append_assoc] at stops
  exact not_stops_of_isRun Char.isDigit digits (rest ++ back) digitsRun stops

theorem IsRowName.isLine {name : String} (isName : IsRowName name) : IsLine name.toList := by
  refine ⟨isName.noBreak, ?_⟩
  intro returned
  rw [← List.head?_reverse] at returned
  exact absurd (isName.trimmed.finish '\r' returned) (by decide)

section Row

variable (zeros id : Nat) {gap : List Char} {name : String} (gapRun : IsRun isGap gap)

theorem isRun_zeros_decimal :
    IsRun Char.isDigit (List.replicate zeros '0' ++ (decimal id).toList) := by
  have digitsRun := isRun_decimal id
  refine ⟨by simp [digitsRun.nonempty], ?_⟩
  intro c member
  rcases List.mem_append.mp member with zero | digit
  · rw [List.eq_of_mem_replicate zero]
    decide
  · exact digitsRun.all c digit

include gapRun

theorem isLine_row (isName : IsRowName name) :
    IsLine (TableLine.row zeros id gap name gapRun).chars := by
  have nonempty : name.toList ≠ [] := by simpa using isName.nonempty
  rw [TableLine.chars, ← List.append_assoc]
  refine isName.isLine.append _ ?_ nonempty
  rw [List.mem_append, not_or]
  exact ⟨(isRun_zeros_decimal zeros id).not_mem '\n' (by decide),
    gapRun.not_mem '\n' (by decide)⟩

theorem isRow_row (writable : IsWritable (id, name)) :
    IsRow (TableLine.row zeros id gap name gapRun).chars id name := by
  have digitsRun := isRun_zeros_decimal zeros id
  have decimalRun := digitsRun.mono isDecimal_of_isDigit
  have blankRun := gapRun.mono isBlank_of_isGap
  have digitsEnd : Stops isDecimal (gap ++ name.toList) :=
    stops_of_isRun isBlank isDecimal gap name.toList blankRun isDecimal_of_isBlank
  have value : numeralValue (List.replicate zeros '0' ++ (decimal id).toList) = id := by
    rw [numeralValue_zeros, numeralValue_decimal]
  have nonempty : name.toList ≠ [] := by simpa using writable.isName.nonempty
  have trimmed := writable.isName.trimmed
  have isRow := IsRow.named ⟨rfl, decimalRun, digitsEnd, blankRun, trimmed.start⟩
    ⟨digitsRun.all, value, writable.fits⟩ nonempty
  rw [trimEnd_of_stops name.toList trimmed.finish, String.ofList_toList] at isRow
  exact isRow

end Row

theorem TableLine.noBreak (line : TableLine) (writable : ∀ row ∈ line.row?, IsWritable row) :
    '\n' ∉ line.chars := by
  cases line with
  | row zeros id gap name gapRun =>
      exact (isLine_row zeros id gapRun (writable _ rfl).isName).noBreak
  | remark text isRemark => exact isRemark.noBreak

theorem TableLine.readRow?_cut (line : TableLine) (ending : LineEnd)
    (writable : ∀ row ∈ line.row?, IsWritable row) :
    readRow? (ending.cut line.chars) = line.row? := by
  cases line with
  | row zeros id gap name gapRun =>
      have isLine := isLine_row zeros id gapRun (writable _ rfl).isName
      rw [ending.cut_of_isLine _ isLine]
      exact (readRow?_eq_some_iff _ isLine.noBreak id name).mpr
        (isRow_row zeros id gapRun (writable _ rfl))
  | remark text isRemark => exact isRemark.readRow?_eq_none _ (ending.cut_prefix text.toList)

theorem IsRemark.readRows_eq_nil {text : String} (isRemark : IsRemark text) :
    readRows text = [] := by
  rw [readRows, List.filterMap_eq_nil_iff]
  have whole := linesFrom_of_noBreak text.toList [] [] isRemark.noBreak
  rw [List.append_nil, List.append_nil] at whole
  intro line member
  rw [lines, whole, linesFrom] at member
  split at member
  · cases member
  · rw [List.reverse_reverse, List.mem_singleton] at member
    exact isRemark.readRow?_eq_none line (member ▸ List.prefix_refl _)

theorem readRows_writeLines (last : String) (lastRemark : IsRemark last)
    (written : List (TableLine × LineEnd))
    (writable : ∀ row ∈ writtenRows written, IsWritable row) :
    readRows (writeLines last written) = writtenRows written := by
  induction written with
  | nil => exact lastRemark.readRows_eq_nil
  | cons line written ih =>
      obtain ⟨line, ending⟩ := line
      have lineWritable : ∀ row ∈ line.row?, IsWritable row := by
        intro row own
        apply writable row
        rw [writtenRows, List.mem_filterMap]
        exact ⟨(line, ending), by simp, own⟩
      have laterWritable : ∀ row ∈ writtenRows written, IsWritable row := by
        intro row later
        apply writable row
        rw [writtenRows, List.mem_filterMap] at later ⊢
        obtain ⟨other, member, own⟩ := later
        exact ⟨other, List.mem_cons_of_mem _ member, own⟩
      have whole : (writeLines last ((line, ending) :: written)).toList =
          line.chars ++ (ending.text.toList ++ (writeLines last written).toList) := by
        simp [writeLines]
      have own := line.readRow?_cut ending lineWritable
      have later := ih laterWritable
      rw [readRows] at later ⊢
      rw [whole, lines_append_lineEnd _ _ ending (line.noBreak lineWritable),
        List.filterMap_cons, own, later, writtenRows, writtenRows, List.filterMap_cons]

theorem toList_insertRows_of_perm (table : RowTable) (rows : List (Nat × String))
    (complete : rows.Perm table.toList) :
    (rows.foldl (fun table row => table.insert row.1 row.2) (∅ : RowTable)).toList =
      table.toList := by
  have distinct : rows.Pairwise fun first second => ¬ compare first.1 second.1 = .eq :=
    complete.symm.pairwise Std.TreeMap.distinct_keys_toList
      fun apart same => apart (Std.OrientedCmp.eq_symm same)
  have same : (Std.TreeMap.ofList rows).Equiv table := by
    apply Std.TreeMap.Equiv.of_forall_constGet?_eq
    intro id
    cases found : table[id]? with
    | some name =>
        have member := complete.mem_iff.mpr (Std.TreeMap.mem_toList_iff_getElem?_eq_some.mpr found)
        exact Std.TreeMap.getElem?_ofList_of_mem Std.ReflCmp.compare_self distinct member
    | none =>
        -- A row with this id would be one of the table.
        apply Std.TreeMap.getElem?_ofList_of_contains_eq_false
        rw [← Bool.not_eq_true, List.contains_iff_mem, List.mem_map]
        intro present
        obtain ⟨row, member, rfl⟩ := present
        have held := Std.TreeMap.mem_toList_iff_getElem?_eq_some.mp (complete.mem_iff.mp member)
        rw [found] at held
        cases held
  exact (Std.TreeMap.ofList_equiv_foldl.symm.trans same).toList_eq

/-- The rows of a table are read back, whatever their order, the zeros in front of their ids, their
gaps, the remarks between them and the ends of their lines. -/
theorem read_written (table : RowTable) (written : List (TableLine × LineEnd)) (last : String)
    (writable : ∀ row ∈ table.toList, IsWritable row) (lastRemark : IsRemark last)
    (complete : (writtenRows written).Perm table.toList) :
    (RowTable.read (writeLines last written)).toList = table.toList := by
  have rowsWritable : ∀ row ∈ writtenRows written, IsWritable row := by
    intro row member
    exact writable row (complete.mem_iff.mp member)
  rw [RowTable.read, readRows_writeLines last lastRemark written rowsWritable]
  exact toList_insertRows_of_perm table (writtenRows written) complete

def gearTable : RowTable :=
  ((∅ : RowTable).insert 7 "3 Swords").insert 18446744073709551615 "Bow\t\rof Ash"

def gearLines : List (TableLine × LineEnd) :=
  [(.remark "# gear" (by decide), .feed),
    (.row 2 18446744073709551615 ['\t', ' '] "Bow\t\rof Ash" (by decide), .feed),
    (.remark " 5 Shields\r" (by decide), .feed),
    (.row 0 7 [' '] "3 Swords" (by decide), .returnFeed)]

theorem read_written_gear :
    (∀ row ∈ gearTable.toList, IsWritable row) ∧ IsRemark "-9 Axe" ∧
      (writtenRows gearLines).Perm gearTable.toList ∧
      writeLines "-9 Axe" gearLines =
        "# gear\n0018446744073709551615\t Bow\t\rof Ash\n 5 Shields\r\n7 3 Swords\r\n-9 Axe" ∧
      (RowTable.read (writeLines "-9 Axe" gearLines)).toList = gearTable.toList := by
  have writable : ∀ row ∈ gearTable.toList, IsWritable row := by decide +kernel
  have lastRemark : IsRemark "-9 Axe" := by decide
  have complete : (writtenRows gearLines).Perm gearTable.toList := by decide +kernel
  exact ⟨writable, lastRemark, complete, by decide +kernel,
    read_written gearTable gearLines "-9 Axe" writable lastRemark complete⟩

end BinaryRecord
