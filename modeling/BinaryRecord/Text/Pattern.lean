import BinaryRecord.Text.Run

/-! Patterns that match from the start of a text, with repetitions that give back what they took.
Main statement: `matchRun?_eq_some_iff`. -/

namespace BinaryRecord

/-- The first list is what a repetition holds, last character first. It gives back one character at
a time until `next` matches what follows, and keeps one character at least. -/
def giveBack {α : Type} (next : List Char → Option α) :
    List Char → List Char → Option (List Char × α)
  | [], _ => none
  | c :: held, rest =>
      match next rest with
      | some found => some ((c :: held).reverse, found)
      | none => giveBack next held (c :: rest)

def matchRun? {α : Type} (kind : Char → Bool) (next : List Char → Option α) (s : List Char) :
    Option (List Char × α) :=
  giveBack next (s.takeWhile kind).reverse (s.dropWhile kind)

section Repetition

variable {α : Type} (next : List Char → Option α)

/-- What is given back is the least that lets the rest of the pattern match. -/
theorem giveBack_eq_some_iff (held rest run : List Char) (found : α) :
    giveBack next held rest = some (run, found) ↔
      run ≠ [] ∧ ∃ given, held.reverse = run ++ given ∧ next (given ++ rest) = some found ∧
        ∀ more less, given = more ++ less → more ≠ [] → next (less ++ rest) = none := by
  induction held generalizing rest with
  | nil =>
      constructor
      · intro matched
        cases matched
      · rintro ⟨nonempty, given, whole, -⟩
        exact absurd (List.append_eq_nil_iff.mp whole.symm).1 nonempty
  | cons c held ih =>
      rw [giveBack, List.reverse_cons]
      cases first : next rest with
      | some other =>
          simp only [Option.some.injEq, Prod.mk.injEq]
          constructor
          · rintro ⟨rfl, rfl⟩
            refine ⟨by simp, [], by simp, first, ?_⟩
            intro more less cut nonempty
            exact absurd (List.append_eq_nil_iff.mp cut.symm).1 nonempty
          · rintro ⟨-, given, whole, matched, least⟩
            cases given with
            | nil =>
                rw [List.append_nil] at whole
                rw [List.nil_append, first] at matched
                exact ⟨whole, Option.some.inj matched⟩
            | cons d given =>
                have fails := least (d :: given) [] (by simp) (by simp)
                rw [List.nil_append, first] at fails
                cases fails
      | none =>
          -- The last character is given back, and the question is the same with one more to follow.
          simp only [ih]
          apply and_congr_right
          intro nonempty
          constructor
          · rintro ⟨given, whole, matched, least⟩
            refine ⟨given ++ [c], by simp [whole], by simpa using matched, ?_⟩
            intro more less cut taken
            rcases List.eq_nil_or_concat less with rfl | ⟨less, d, rfl⟩
            · exact first
            · rw [List.concat_eq_append, ← List.append_assoc] at cut
              have parts := List.append_inj' cut rfl
              cases parts.2
              simpa using least more less parts.1 taken
          · rintro ⟨given, whole, matched, least⟩
            rcases List.eq_nil_or_concat given with rfl | ⟨given, d, rfl⟩
            · rw [List.nil_append, first] at matched
              cases matched
            · rw [List.concat_eq_append] at *
              rw [← List.append_assoc] at whole
              have parts := List.append_inj' whole rfl
              cases parts.2
              refine ⟨given, parts.1, by simpa using matched, ?_⟩
              intro more less cut taken
              have fails := least more (less ++ [c]) (by simp [cut]) taken
              simpa using fails

theorem matchRun?_eq_some_iff (kind : Char → Bool) (s run : List Char) (found : α) :
    matchRun? kind next s = some (run, found) ↔
      ∃ rest, s = run ++ rest ∧ IsRun kind run ∧ next rest = some found ∧
        ∀ more less, rest = more ++ less → IsRun kind more → next less = none := by
  rw [matchRun?, giveBack_eq_some_iff, List.reverse_reverse]
  have whole : s.takeWhile kind ++ s.dropWhile kind = s := List.takeWhile_append_dropWhile
  have all : ∀ c ∈ s.takeWhile kind, kind c = true := List.all_eq_true.mp List.all_takeWhile
  have stops := stops_dropWhile kind s
  generalize s.takeWhile kind = front, s.dropWhile kind = back at whole all stops
  constructor
  · rintro ⟨nonempty, given, rfl, matched, least⟩
    refine ⟨given ++ back, by simp [← whole], ⟨nonempty, fun c inside => all c (by simp [inside])⟩,
      matched, ?_⟩
    intro more less cut isRun
    rcases exists_left_of_run kind more less given back isRun.all stops cut with ⟨left, rfl, rfl⟩
    exact least more left rfl isRun.nonempty
  · rintro ⟨rest, rfl, isRun, matched, least⟩
    rcases exists_left_of_run kind run rest front back isRun.all stops whole with
      ⟨given, rfl, rfl⟩
    refine ⟨isRun.nonempty, given, rfl, matched, ?_⟩
    rintro more less rfl nonempty
    refine least more (less ++ back) (by simp) ⟨nonempty, ?_⟩
    intro c inside
    exact all c (by simp [inside])

end Repetition

end BinaryRecord
