import BinaryRecord.RowTable
import Mathlib.Data.List.Induction

namespace BinaryRecord

structure RowParts (line digits gap rest : List Char) : Prop where
  whole : line = digits ++ (gap ++ rest)
  digitsRun : IsRun isDecimal digits
  digitsEnd : Stops isDecimal (gap ++ rest)
  gapRun : IsRun isBlank gap
  gapEnd : Stops isBlank rest

structure IsRowId (digits : List Char) (id : Nat) : Prop where
  ascii : ∀ c ∈ digits, c.isDigit = true
  value : numeralValue digits = id
  fits : id < wordLimit

/-- The lines that give a row. A name can be missing only after two characters of white space. -/
inductive IsRow (line : List Char) (id : Nat) : String → Prop
  | named {digits gap rest : List Char} (parts : RowParts line digits gap rest)
      (isId : IsRowId digits id) (nonempty : rest ≠ []) :
      IsRow line id (String.ofList (trimEnd rest))
  | unnamed {digits gap : List Char} (parts : RowParts line digits gap [])
      (isId : IsRowId digits id) (wide : 2 ≤ gap.length) : IsRow line id ""

theorem isDecimal_of_isBlank (c : Char) (blank : isBlank c = true) : isDecimal c = false :=
  whiteSpace.contains_eq_false_of_apart decimalDigits (by decide +kernel) c blank

section Line

variable (s : List Char) (noBreak : '\n' ∉ s)

include noBreak

theorem matchName?_eq_some_iff (name rest : List Char) :
    matchName? s = some (name, rest) ↔ s ≠ [] ∧ name = s ∧ rest = [] := by
  rw [matchName?, matchRun?_eq_some_iff]
  simp only [Option.some.injEq]
  constructor
  · rintro ⟨after, rfl, isRun, rfl, longest⟩
    cases after with
    | nil => simpa using isRun.nonempty
    | cons c after =>
        -- What is left starts with a character that the name could have taken.
        have other : c ≠ '\n' := fun same => noBreak (by simp [same])
        have unmatched := longest [c] after rfl ⟨by simp, by simpa using other⟩
        cases unmatched
  · rintro ⟨nonempty, rfl, rfl⟩
    refine ⟨[], by simp, ⟨nonempty, ?_⟩, rfl, ?_⟩
    · intro c member
      have other : c ≠ '\n' := fun same => noBreak (same ▸ member)
      simpa using other
    · intro more less cut isRun
      exact absurd (List.append_eq_nil_iff.mp cut.symm).1 isRun.nonempty

theorem matchName?_eq_none_iff : matchName? s = none ↔ s = [] := by
  constructor
  · intro unmatched
    by_contra nonempty
    have matched := (matchName?_eq_some_iff s noBreak s []).mpr ⟨nonempty, rfl, rfl⟩
    rw [unmatched] at matched
    cases matched
  · rintro rfl
    rfl

/-- White space is taken whole where a name stands behind it, and all but its last character where
none does. -/
theorem matchGap?_eq_some_iff (gap name rest : List Char) :
    matchGap? s = some (gap, name, rest) ↔
      s = gap ++ name ∧ IsRun isBlank gap ∧ name ≠ [] ∧ rest = [] ∧
        (Stops isBlank name ∨ ∃ c, isBlank c = true ∧ name = [c]) := by
  rw [matchGap?, matchRun?_eq_some_iff]
  constructor
  · rintro ⟨after, rfl, isRun, matched, longest⟩
    have afterClean : '\n' ∉ after := fun inside => noBreak (List.mem_append_right gap inside)
    rcases (matchName?_eq_some_iff after afterClean name rest).mp matched with
      ⟨nonempty, rfl, rfl⟩
    refine ⟨rfl, isRun, nonempty, rfl, ?_⟩
    cases name with
    | nil => exact absurd rfl nonempty
    | cons c less =>
        cases blank : isBlank c with
        | false => exact .inl (stops_cons isBlank c less blank)
        | true =>
            have unmatched := longest [c] less rfl ⟨by simp, by simpa using blank⟩
            have lessClean : '\n' ∉ less := fun inside => afterClean (List.mem_cons_of_mem c inside)
            have last := (matchName?_eq_none_iff less lessClean).mp unmatched
            exact .inr ⟨c, blank, by rw [last]⟩
  · rintro ⟨rfl, isRun, nonempty, rfl, ends⟩
    have nameClean : '\n' ∉ name := fun inside => noBreak (List.mem_append_right gap inside)
    refine ⟨name, rfl, isRun, (matchName?_eq_some_iff name nameClean name []).mpr
      ⟨nonempty, rfl, rfl⟩, ?_⟩
    intro more less cut moreRun
    rcases ends with stops | ⟨c, -, rfl⟩
    · rw [cut] at stops
      exact absurd stops (not_stops_of_isRun isBlank more less moreRun)
    · rcases List.append_eq_singleton_iff.mp cut.symm with ⟨none, -⟩ | ⟨-, rfl⟩
      · exact absurd none moreRun.nonempty
      · rfl

/-- Digits and white space have no character in common, so no digit is ever given back. -/
theorem matchRow?_eq_some_iff (digits gap name rest : List Char) :
    matchRow? s = some (digits, gap, name, rest) ↔
      s = digits ++ (gap ++ name) ∧ IsRun isDecimal digits ∧ IsRun isBlank gap ∧ name ≠ [] ∧
        rest = [] ∧ (Stops isBlank name ∨ ∃ c, isBlank c = true ∧ name = [c]) := by
  rw [matchRow?, matchRun?_eq_some_iff]
  constructor
  · rintro ⟨after, rfl, isRun, matched, -⟩
    have afterClean : '\n' ∉ after := fun inside => noBreak (List.mem_append_right digits inside)
    rcases (matchGap?_eq_some_iff after afterClean gap name rest).mp matched with ⟨rfl, ends⟩
    exact ⟨rfl, isRun, ends⟩
  · rintro ⟨rfl, isRun, ends⟩
    have afterClean : '\n' ∉ gap ++ name :=
      fun inside => noBreak (List.mem_append_right digits inside)
    refine ⟨gap ++ name, rfl, isRun, ?_, ?_⟩
    · exact (matchGap?_eq_some_iff _ afterClean gap name rest).mpr ⟨rfl, ends⟩
    · intro more less cut moreRun
      have stops := stops_of_isRun isBlank isDecimal gap name ends.1 isDecimal_of_isBlank
      rw [cut] at stops
      exact absurd stops (not_stops_of_isRun isDecimal more less moreRun)

end Line

theorem readRow?_eq_some_iff_matched (line : List Char) (id : Nat) (name : String) :
    readRow? line = some (id, name) ↔
      ∃ digits gap text rest, matchRow? line = some (digits, gap, text, rest) ∧
        IsRowId digits id ∧ name = String.ofList (trimEnd text) := by
  unfold readRow?
  cases matched : matchRow? line with
  | none => simp
  | some parts =>
      rcases parts with ⟨digits, gap, text, rest⟩
      simp only [Option.some.injEq, Prod.mk.injEq]
      constructor
      · intro row
        split at row
        · next valid =>
            simp only [Bool.and_eq_true, List.all_eq_true, decide_eq_true_eq] at valid
            simp only [Option.some.injEq, Prod.mk.injEq] at row
            refine ⟨digits, gap, text, rest, ⟨rfl, rfl, rfl, rfl⟩, ?_, row.2.symm⟩
            exact ⟨valid.1, row.1, row.1 ▸ valid.2⟩
        · cases row
      · rintro ⟨_, _, _, _, ⟨rfl, rfl, rfl, rfl⟩, isId, rfl⟩
        have valid :
            (digits.all Char.isDigit && decide (numeralValue digits < wordLimit)) = true := by
          simp only [Bool.and_eq_true, List.all_eq_true, decide_eq_true_eq]
          exact ⟨isId.ascii, isId.value ▸ isId.fits⟩
        rw [if_pos valid, isId.value]

theorem trimEnd_singleton (c : Char) (blank : isBlank c = true) : trimEnd [c] = [] := by
  simp [trimEnd, blank]

theorem isRow_of_matchRow? (line digits gap text rest : List Char) (id : Nat)
    (noBreak : '\n' ∉ line) (matched : matchRow? line = some (digits, gap, text, rest))
    (isId : IsRowId digits id) : IsRow line id (String.ofList (trimEnd text)) := by
  rcases (matchRow?_eq_some_iff line noBreak digits gap text rest).mp matched with
    ⟨whole, digitsRun, gapRun, nonempty, -, stops | ⟨c, blank, rfl⟩⟩
  · have digitsEnd := stops_of_isRun isBlank isDecimal gap text gapRun isDecimal_of_isBlank
    exact .named ⟨whole, digitsRun, digitsEnd, gapRun, stops⟩ isId nonempty
  · -- All of the rest is white space, and the match keeps its last character for the name.
    have digitsEnd := stops_of_isRun isBlank isDecimal gap [c] gapRun isDecimal_of_isBlank
    have parts : RowParts line digits (gap ++ [c]) [] :=
      ⟨by simpa using whole, digitsRun, by simpa using digitsEnd, gapRun.append_singleton blank,
        stops_nil isBlank⟩
    have positive := List.length_pos_iff.mpr gapRun.nonempty
    have wide : 2 ≤ (gap ++ [c]).length := by
      rw [List.length_append, List.length_singleton]
      omega
    rw [trimEnd_singleton c blank]
    exact .unnamed parts isId wide

theorem matchRow?_of_named (line digits gap rest : List Char) (noBreak : '\n' ∉ line)
    (parts : RowParts line digits gap rest) (nonempty : rest ≠ []) :
    matchRow? line = some (digits, gap, rest, []) :=
  (matchRow?_eq_some_iff line noBreak digits gap rest []).mpr
    ⟨parts.whole, parts.digitsRun, parts.gapRun, nonempty, rfl, .inl parts.gapEnd⟩

theorem matchRow?_of_unnamed (line digits gap : List Char) (noBreak : '\n' ∉ line)
    (parts : RowParts line digits gap []) (wide : 2 ≤ gap.length) :
    ∃ front c, isBlank c = true ∧ matchRow? line = some (digits, front, [c], []) := by
  rcases List.eq_nil_or_concat gap with rfl | ⟨front, c, rfl⟩
  · cases wide
  · rw [List.concat_eq_append] at *
    have blank := parts.gapRun.all c (by simp)
    have frontRun : IsRun isBlank front := by
      refine ⟨?_, fun d inside => parts.gapRun.all d (by simp [inside])⟩
      rintro rfl
      simp at wide
    refine ⟨front, c, blank, (matchRow?_eq_some_iff line noBreak digits front [c] []).mpr ?_⟩
    exact ⟨by simpa using parts.whole, parts.digitsRun, frontRun, by simp, rfl,
      .inr ⟨c, blank, rfl⟩⟩

theorem readRow?_eq_some_iff (line : List Char) (noBreak : '\n' ∉ line) (id : Nat)
    (name : String) : readRow? line = some (id, name) ↔ IsRow line id name := by
  rw [readRow?_eq_some_iff_matched]
  constructor
  · rintro ⟨digits, gap, text, rest, matched, isId, rfl⟩
    exact isRow_of_matchRow? line digits gap text rest id noBreak matched isId
  · intro isRow
    cases isRow with
    | @named digits gap rest parts isId nonempty =>
        have matched := matchRow?_of_named line digits gap rest noBreak parts nonempty
        exact ⟨digits, gap, rest, [], matched, isId, rfl⟩
    | @unnamed digits gap parts isId wide =>
        rcases matchRow?_of_unnamed line digits gap noBreak parts wide with
          ⟨front, c, blank, matched⟩
        refine ⟨digits, front, [c], [], matched, isId, ?_⟩
        rw [trimEnd_singleton c blank]

def rowName? (id : Nat) (line : List Char) : Option String :=
  (readRow? line).bind fun row => if row.1 = id then some row.2 else none

theorem rowName?_eq_some_iff (id : Nat) (line : List Char) (noBreak : '\n' ∉ line)
    (name : String) : rowName? id line = some name ↔ IsRow line id name := by
  rw [← readRow?_eq_some_iff line noBreak, rowName?]
  cases readRow? line with
  | none => simp
  | some row =>
      rcases row with ⟨own, ownName⟩
      by_cases same : own = id <;> simp [same]

theorem getElem?_insertRows (rows : List (List Char)) (id : Nat) :
    ((rows.filterMap readRow?).foldl (fun table row => table.insert row.1 row.2)
      (∅ : RowTable))[id]? = rows.reverse.findSome? (rowName? id) := by
  induction rows using List.reverseRecOn with
  | nil => simp
  | append_singleton rows line ih =>
      rw [List.filterMap_append, List.foldl_append, List.reverse_append, List.reverse_singleton,
        List.singleton_append, List.findSome?_cons, ← ih, rowName?]
      cases read : readRow? line with
      | none => simp [read]
      | some row =>
          simp only [List.filterMap_cons, read, List.filterMap_nil, List.foldl_cons,
            List.foldl_nil, Option.bind_some, Std.TreeMap.getElem?_insert,
            Std.LawfulEqOrd.compare_eq_iff_eq]
          split <;> rfl

/-- An id has the name of the last line that is a row for it, and no name where no line is. Lines
that are no rows change nothing. -/
theorem getElem?_read_eq_some_iff (text : String) (id : Nat) (name : String) :
    (RowTable.read text)[id]? = some name ↔
      ∃ front line back, lines text.toList = front ++ line :: back ∧ IsRow line id name ∧
        ∀ later ∈ back, ∀ other, ¬ IsRow later id other := by
  have noBreak := not_newline_of_mem_lines text.toList
  rw [RowTable.read, readRows, getElem?_insertRows, List.findSome?_eq_some_iff]
  constructor
  · rintro ⟨back, line, front, cut, found, last⟩
    have whole := congrArg List.reverse cut
    rw [List.reverse_reverse, List.reverse_append, List.reverse_cons, List.append_assoc,
      List.singleton_append] at whole
    rw [whole] at noBreak
    refine ⟨front.reverse, line, back.reverse, whole, ?_, ?_⟩
    · exact (rowName?_eq_some_iff id line (noBreak line (by simp)) name).mp found
    · intro later member other isRow
      have named := (rowName?_eq_some_iff id later (noBreak later (by simp_all)) other).mpr isRow
      rw [last later (List.mem_reverse.mp member)] at named
      cases named
  · rintro ⟨front, line, back, whole, isRow, last⟩
    rw [whole] at noBreak
    refine ⟨back.reverse, line, front.reverse, by simp [whole], ?_, ?_⟩
    · exact (rowName?_eq_some_iff id line (noBreak line (by simp)) name).mpr isRow
    · intro later member
      rw [List.mem_reverse] at member
      rw [Option.eq_none_iff_forall_ne_some]
      intro other named
      have clean := noBreak later (by simp [member])
      exact last later member other ((rowName?_eq_some_iff id later clean other).mp named)

example : (RowTable.read "7 Sword\n007  Bow \n9\n8\t \n").toList = [(7, "Bow"), (8, "")] := by
  decide +kernel

end BinaryRecord
