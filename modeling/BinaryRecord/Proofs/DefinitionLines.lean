import BinaryRecord.Record
import BinaryRecord.Text.Trimming

namespace BinaryRecord

theorem isComment_iff (s : List Char) :
    isComment s = true ↔ "#".toList <+: s ∨ "//".toList <+: s := by
  unfold isComment
  split
  · simp
  · simp
  · next noHash noSlashes =>
      simp only [Bool.false_eq_true, false_iff, not_or]
      constructor
      · intro hash
        rcases hash with ⟨rest, rfl⟩
        exact noHash rest rfl
      · intro slashes
        rcases slashes with ⟨rest, rfl⟩
        exact noSlashes rest rfl

structure IsCleanLine (line : String) : Prop where
  nonempty : line ≠ ""
  trimmed : IsTrimmed line.toList
  noBreak : '\n' ∉ line.toList
  noHash : ¬ "#".toList <+: line.toList
  noSlashes : ¬ "//".toList <+: line.toList

instance (line : String) : Decidable (IsCleanLine line) :=
  decidable_of_iff (line ≠ "" ∧ IsTrimmed line.toList ∧ '\n' ∉ line.toList ∧
      ¬ "#".toList <+: line.toList ∧ ¬ "//".toList <+: line.toList)
    ⟨fun all => ⟨all.1, all.2.1, all.2.2.1, all.2.2.2.1, all.2.2.2.2⟩,
      fun clean => ⟨clean.nonempty, clean.trimmed, clean.noBreak, clean.noHash, clean.noSlashes⟩⟩

def lineContents (found : List (List Char)) : List String :=
  ((found.map trim).filter fun line => !line.isEmpty && !isComment line).map String.ofList

theorem definitionLines_eq (text : String) :
    definitionLines text = lineContents (lines text.toList) := rfl

theorem lineContents_append (found more : List (List Char)) :
    lineContents (found ++ more) = lineContents found ++ lineContents more := by
  simp [lineContents]

theorem lineContents_cons (line : List Char) (found : List (List Char)) :
    lineContents (line :: found) = lineContents [line] ++ lineContents found :=
  lineContents_append [line] found

theorem lineContents_congr (line other : List Char) (same : trim line = trim other) :
    lineContents [line] = lineContents [other] := by
  simp [lineContents, same]

theorem isCleanLine_of_mem (found : List (List Char)) (noBreak : ∀ line ∈ found, '\n' ∉ line) :
    ∀ content ∈ lineContents found, IsCleanLine content := by
  intro content member
  rcases List.mem_map.mp member with ⟨kept, inside, rfl⟩
  rw [List.mem_filter, Bool.and_eq_true] at inside
  rcases List.mem_map.mp inside.1 with ⟨line, present, rfl⟩
  have noComment : ¬ isComment (trim line) = true := by simpa using inside.2.2
  rw [isComment_iff, not_or] at noComment
  have chars : (String.ofList (trim line)).toList = trim line := String.toList_ofList
  constructor
  · simpa [← String.toList_inj] using inside.2.1
  · rw [chars]
    exact isTrimmed_trim line
  · rw [chars]
    intro lineFeed
    exact noBreak line present (mem_of_mem_trim line _ lineFeed)
  · rw [chars]
    exact noComment.1
  · rw [chars]
    exact noComment.2

theorem IsCleanLine.contents {line : String} (clean : IsCleanLine line) :
    lineContents [line.toList] = [line] := by
  have noComment : isComment line.toList = false := by
    rw [← Bool.not_eq_true, isComment_iff, not_or]
    exact ⟨clean.noHash, clean.noSlashes⟩
  simp [lineContents, trim_of_isTrimmed _ clean.trimmed, noComment, clean.nonempty]

theorem trim_dropReturn (line : List Char) :
    trim (dropReturn line).reverse = trim line.reverse := by
  unfold dropReturn
  split
  · rw [List.reverse_cons]
    exact (trim_append_singleton _ '\r' (by decide)).symm
  · rfl

theorem lineContents_linesFrom_nil (line : List Char) :
    lineContents (linesFrom line []) = lineContents [line.reverse] := by
  cases line with
  | nil => rfl
  | cons c line => rfl

/-- The line feed ends the line that the first text ends with. Whether this one had a carriage
return, or no characters at all, is lost in trimming. -/
theorem lineContents_linesFrom (line front back : List Char) :
    lineContents (linesFrom line (front ++ '\n' :: back)) =
      lineContents (linesFrom line front) ++ lineContents (lines back) := by
  induction front generalizing line with
  | nil =>
      rw [List.nil_append, linesFrom_newline, lineContents_cons, lineContents_linesFrom_nil,
        lineContents_congr _ _ (trim_dropReturn line), lines]
  | cons c front ih =>
      rw [List.cons_append]
      by_cases lineFeed : c = '\n'
      · rw [lineFeed, linesFrom_newline, linesFrom_newline, lineContents_cons, ih,
          lineContents_cons _ (linesFrom [] front), List.append_assoc]
      · rw [linesFrom_cons c line _ lineFeed, linesFrom_cons c line _ lineFeed]
        exact ih (c :: line)

theorem definitionLines_append (front back : String) :
    definitionLines (front ++ "\n" ++ back) = definitionLines front ++ definitionLines back := by
  have chars : (front ++ "\n" ++ back).toList = front.toList ++ '\n' :: back.toList := by simp
  rw [definitionLines_eq, chars, lines, lineContents_linesFrom]
  rfl

theorem definitionLines_of_noBreak (text : String) (noBreak : '\n' ∉ text.toList) :
    definitionLines text = lineContents [text.toList] := by
  have only := linesFrom_of_noBreak text.toList [] [] noBreak
  rw [List.append_nil, List.append_nil] at only
  rw [definitionLines_eq, lines, only, lineContents_linesFrom_nil, List.reverse_reverse]

theorem definitionLines_line (line rest : String) (ending : LineEnd)
    (noBreak : '\n' ∉ line.toList) :
    definitionLines (line ++ ending.text ++ rest) =
      lineContents [line.toList] ++ definitionLines rest := by
  cases ending with
  | feed =>
      rw [LineEnd.text, definitionLines_append, definitionLines_of_noBreak line noBreak]
  | returnFeed =>
      have cut : line ++ "\r\n" ++ rest = line ++ "\r" ++ "\n" ++ rest := by
        simp [← String.toList_inj]
      have chars : (line ++ "\r").toList = line.toList ++ ['\r'] := by simp
      have noBreakReturn : '\n' ∉ (line ++ "\r").toList := by simp [noBreak]
      -- Cut at the line feed, the text leaves the carriage return on the line, to be trimmed.
      have content : definitionLines (line ++ "\r") = lineContents [line.toList] := by
        rw [definitionLines_of_noBreak _ noBreakReturn, chars]
        exact lineContents_congr _ _ (trim_append_singleton _ '\r' (by decide))
      calc
        definitionLines (line ++ "\r\n" ++ rest) =
            definitionLines (line ++ "\r" ++ "\n" ++ rest) := by rw [cut]
        _ = definitionLines (line ++ "\r") ++ definitionLines rest := definitionLines_append _ rest
        _ = lineContents [line.toList] ++ definitionLines rest := by rw [content]

/-- Lines as a text: each but the last with the given end, and the last with an end of its own, or
with none. -/
def joinLines (ending : LineEnd) (final : Option LineEnd) (texts : List String) : String :=
  ending.text.intercalate texts ++ (final.map LineEnd.text).getD ""

theorem definitionLines_joinLines_of_noBreak (ending : LineEnd) (final : Option LineEnd)
    (texts : List String) (noBreak : ∀ line ∈ texts, '\n' ∉ line.toList) :
    definitionLines (joinLines ending final texts) = lineContents (texts.map String.toList) := by
  induction texts with
  | nil =>
      rw [joinLines, String.intercalate_nil, String.empty_append]
      cases final with
      | none => rfl
      | some last => cases last <;> decide
  | cons line texts ih =>
      rw [List.forall_mem_cons] at noBreak
      rw [List.map_cons, lineContents_cons]
      cases texts with
      | nil =>
          rw [joinLines, String.intercalate_singleton]
          cases final with
          | none => simpa [lineContents] using definitionLines_of_noBreak line noBreak.1
          | some last =>
              have alone := definitionLines_line line "" last noBreak.1
              rwa [String.append_empty] at alone
      | cons next texts =>
          rw [joinLines, String.intercalate_cons_cons, String.append_assoc,
            definitionLines_line line _ ending noBreak.1]
          exact congrArg (lineContents [line.toList] ++ ·) (ih noBreak.2)

theorem lineContents_of_clean (texts : List String) (clean : ∀ line ∈ texts, IsCleanLine line) :
    lineContents (texts.map String.toList) = texts := by
  induction texts with
  | nil => rfl
  | cons line texts ih =>
      rw [List.forall_mem_cons] at clean
      rw [List.map_cons, lineContents_cons, clean.1.contents, ih clean.2, List.singleton_append]

theorem definitionLines_joinLines (ending : LineEnd) (final : Option LineEnd)
    (texts : List String) (clean : ∀ line ∈ texts, IsCleanLine line) :
    definitionLines (joinLines ending final texts) = texts := by
  have noBreak : ∀ line ∈ texts, '\n' ∉ line.toList :=
    fun line member => (clean line member).noBreak
  rw [definitionLines_joinLines_of_noBreak ending final texts noBreak,
    lineContents_of_clean texts clean]

/-- Only clean lines are read from a text, clean lines are read back from every text that they are
joined to, and two texts joined by a line feed are read one after the other. -/
theorem definitionLines_lossless :
    (∀ text, ∀ line ∈ definitionLines text, IsCleanLine line) ∧
      (∀ ending final texts, (∀ line ∈ texts, IsCleanLine line) →
        definitionLines (joinLines ending final texts) = texts) ∧
      ∀ front back, definitionLines (front ++ "\n" ++ back) =
        definitionLines front ++ definitionLines back := by
  refine ⟨?_, definitionLines_joinLines, definitionLines_append⟩
  intro text
  exact isCleanLine_of_mem _ (not_newline_of_mem_lines text.toList)

def crowdedLines : List String := ["u8 a\t # b", "/ c", "d\r\re = //", "\u200B"]

theorem definitionLines_lossless_sample :
    "u8 a" ∈ definitionLines "// first\r\n\t u8 a\u3000\r" ∧ IsCleanLine "u8 a" ∧
      (∀ line ∈ crowdedLines, IsCleanLine line) ∧
      definitionLines (joinLines .returnFeed none crowdedLines) = crowdedLines ∧
      definitionLines (joinLines .feed (some .returnFeed) crowdedLines) = crowdedLines := by
  have found : "u8 a" ∈ definitionLines "// first\r\n\t u8 a\u3000\r" := by decide +kernel
  have clean : ∀ line ∈ crowdedLines, IsCleanLine line := by decide +kernel
  have joined := definitionLines_lossless.2.1
  exact ⟨found, definitionLines_lossless.1 _ _ found, clean, joined .returnFeed none _ clean,
    joined .feed (some .returnFeed) _ clean⟩

end BinaryRecord
