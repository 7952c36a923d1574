/-! Lines of a text. A line ends with a line feed, which may follow one carriage return. -/

namespace BinaryRecord

def dropReturn : List Char → List Char
  | '\r' :: rest => rest
  | line => line

/-- The first argument is the line read so far, last character first. The end of the text ends a
line that has characters, and leaves a carriage return there in place. -/
def linesFrom (line : List Char) : List Char → List (List Char)
  | [] => if line.isEmpty then [] else [line.reverse]
  | c :: rest =>
      if c = '\n' then (dropReturn line).reverse :: linesFrom [] rest
      else linesFrom (c :: line) rest

def lines (text : List Char) : List (List Char) := linesFrom [] text

theorem dropReturn_suffix (line : List Char) : dropReturn line <:+ line := by
  unfold dropReturn
  split
  · exact List.suffix_cons _ _
  · exact List.suffix_refl _

theorem not_newline_of_mem_linesFrom (text line : List Char) (clean : '\n' ∉ line) :
    ∀ l ∈ linesFrom line text, '\n' ∉ l := by
  induction text generalizing line with
  | nil =>
      intro l member
      simp only [linesFrom] at member
      split at member
      · simp at member
      · simp only [List.mem_singleton] at member
        simpa [member] using clean
  | cons c rest ih =>
      intro l member
      simp only [linesFrom] at member
      split at member
      · rcases List.mem_cons.mp member with rfl | later
        · intro inside
          exact clean ((dropReturn_suffix line).subset (List.mem_reverse.mp inside))
        · exact ih [] (by simp) l later
      · next other =>
          refine ih (c :: line) ?_ l member
          simp only [List.mem_cons, not_or]
          exact ⟨fun same => other same.symm, clean⟩

structure IsLine (s : List Char) : Prop where
  noBreak : '\n' ∉ s
  noReturn : s.getLast? ≠ some '\r'

instance (s : List Char) : Decidable (IsLine s) :=
  decidable_of_iff ('\n' ∉ s ∧ s.getLast? ≠ some '\r')
    ⟨fun both => ⟨both.1, both.2⟩, fun isLine => ⟨isLine.noBreak, isLine.noReturn⟩⟩

theorem IsLine.append {back : List Char} (isLine : IsLine back) (front : List Char)
    (noBreak : '\n' ∉ front) (nonempty : back ≠ []) : IsLine (front ++ back) := by
  constructor
  · rw [List.mem_append, not_or]
    exact ⟨noBreak, isLine.noBreak⟩
  · have noReturn := isLine.noReturn
    rw [List.getLast?_eq_some_getLast nonempty] at noReturn
    rw [List.getLast?_append, List.getLast?_eq_some_getLast nonempty, Option.some_or]
    exact noReturn

theorem dropReturn_of_head? (line : List Char) (noReturn : line.head? ≠ some '\r') :
    dropReturn line = line := by
  unfold dropReturn
  split
  · exact absurd rfl noReturn
  · rfl

theorem linesFrom_newline (line rest : List Char) :
    linesFrom line ('\n' :: rest) = (dropReturn line).reverse :: linesFrom [] rest := by
  rw [linesFrom, if_pos rfl]

theorem linesFrom_cons (c : Char) (line rest : List Char) (other : c ≠ '\n') :
    linesFrom line (c :: rest) = linesFrom (c :: line) rest := by
  rw [linesFrom, if_neg other]

theorem linesFrom_of_noBreak (s line rest : List Char) (noBreak : '\n' ∉ s) :
    linesFrom line (s ++ rest) = linesFrom (s.reverse ++ line) rest := by
  induction s generalizing line with
  | nil => rfl
  | cons c s ih =>
      rw [List.mem_cons, not_or] at noBreak
      rw [List.cons_append, linesFrom_cons c line _ (Ne.symm noBreak.1), ih (c :: line) noBreak.2]
      simp

inductive LineEnd
  | feed
  | returnFeed
  deriving DecidableEq, Repr

def LineEnd.text : LineEnd → String
  | .feed => "\n"
  | .returnFeed => "\r\n"

/-- What is read of a line that is written with the end. A line feed alone takes a carriage return
in front of it for its own. -/
def LineEnd.cut : LineEnd → List Char → List Char
  | .feed, s => (dropReturn s.reverse).reverse
  | .returnFeed, s => s

theorem lines_append_lineEnd (s rest : List Char) (ending : LineEnd) (noBreak : '\n' ∉ s) :
    lines (s ++ (ending.text.toList ++ rest)) = ending.cut s :: lines rest := by
  cases ending with
  | feed =>
      change lines (s ++ '\n' :: rest) = _
      rw [lines, linesFrom_of_noBreak s [] _ noBreak, linesFrom_newline, List.append_nil]
      rfl
  | returnFeed =>
      have returned : '\n' ∉ s ++ ['\r'] := by simp [noBreak]
      have whole : s ++ ("\r\n".toList ++ rest) = (s ++ ['\r']) ++ '\n' :: rest := by simp
      rw [LineEnd.text, whole, lines, linesFrom_of_noBreak _ [] _ returned, linesFrom_newline,
        List.append_nil, List.reverse_append]
      change s.reverse.reverse :: lines rest = _
      rw [List.reverse_reverse]
      rfl

theorem LineEnd.cut_prefix (ending : LineEnd) (s : List Char) : ending.cut s <+: s := by
  cases ending with
  | feed =>
      simpa [cut] using List.reverse_prefix.mpr (dropReturn_suffix s.reverse)
  | returnFeed => exact List.prefix_refl s

theorem LineEnd.cut_of_isLine (ending : LineEnd) (line : List Char) (isLine : IsLine line) :
    ending.cut line = line := by
  cases ending with
  | feed =>
      rw [cut, dropReturn_of_head?, List.reverse_reverse]
      rw [List.head?_reverse]
      exact isLine.noReturn
  | returnFeed => rfl

theorem lines_append (line rest : List Char) (isLine : IsLine line) :
    lines (line ++ '\n' :: rest) = line :: lines rest := by
  have cut := lines_append_lineEnd line rest .feed isLine.noBreak
  rw [LineEnd.cut_of_isLine .feed line isLine] at cut
  exact cut

theorem not_newline_of_mem_lines (text : List Char) : ∀ l ∈ lines text, '\n' ∉ l :=
  not_newline_of_mem_linesFrom text [] (by simp)

end BinaryRecord
