import BinaryRecord.Proofs.SnakeCase

namespace BinaryRecord

theorem isChain_parted_iff (s : List Char) :
    s.IsChain Parted ↔ ∀ u v, s ≠ u ++ '_' :: '_' :: v := by
  rw [List.isChain_iff_forall_rel_of_append_cons_cons]
  constructor
  · intro parted u v cut
    exact parted cut ⟨rfl, rfl⟩
  · intro single c d u v cut both
    rw [both.1, both.2] at cut
    exact single u v cut

theorem squeeze_single (s u v : List Char) : squeeze s ≠ u ++ '_' :: '_' :: v := by
  rw [squeeze_eq_destutter]
  exact (isChain_parted_iff _).mp (List.isChain_destutter Parted s) u v

theorem squeeze_of_single (s : List Char) (single : ∀ u v, s ≠ u ++ '_' :: '_' :: v) :
    squeeze s = s := by
  rw [squeeze_eq_destutter]
  exact List.destutter_of_isChain Parted s ((isChain_parted_iff s).mpr single)

theorem isSnake_snakeChars (s : List Char) : IsSnake (snakeChars s) := by
  constructor
  · intro c member
    have found := snakeChars_subset s member
    simp only [List.mem_cons, List.mem_map] at found
    rcases found with rfl | ⟨d, -, rfl⟩
    · decide
    · exact not_isUpper_toLower d
  · cases s with
    | nil => intro u v; simp [snakeChars]
    | cons c s => exact squeeze_single _

theorem snakeChars_of_isSnake (s : List Char) (snake : IsSnake s) : snakeChars s = s := by
  cases s with
  | nil => rfl
  | cons c s =>
      have first : c.toLower = c := toLower_of_low c (snake.low c (by simp))
      have rest : splitWords false s = s := by
        apply splitWords_of_low
        intro d member
        exact snake.low d (List.mem_cons_of_mem c member)
      rw [snakeChars, first, rest]
      exact squeeze_of_single _ snake.single

theorem snakeChars_eq_self_iff (s : List Char) : snakeChars s = s ↔ IsSnake s := by
  constructor
  · intro same
    rw [← same]
    exact isSnake_snakeChars s
  · exact snakeChars_of_isSnake s

instance (s : List Char) : Decidable (IsSnake s) := decidable_of_iff _ (snakeChars_eq_self_iff s)

theorem isSnake_snakeCase (name : String) : IsSnake (snakeCase name).toList := by
  rw [snakeCase, String.toList_ofList]
  exact isSnake_snakeChars name.toList

theorem snakeCase_eq_self_iff (name : String) : snakeCase name = name ↔ IsSnake name.toList := by
  rw [← snakeChars_eq_self_iff, ← String.toList_inj, snakeCase, String.toList_ofList]

theorem snakeCase_snakeCase (name : String) : snakeCase (snakeCase name) = snakeCase name :=
  (snakeCase_eq_self_iff _).mpr (isSnake_snakeCase name)

theorem squeeze_cons_congr (c : Char) (s t : List Char) (heads : s.head? = t.head?)
    (same : squeeze s = squeeze t) : squeeze (c :: s) = squeeze (c :: t) := by
  cases s with
  | nil => rw [List.head?_eq_none_iff.mp heads.symm]
  | cons d s =>
      rcases List.head?_eq_some_iff.mp heads.symm with ⟨t, rfl⟩
      rw [squeeze, squeeze, same]

theorem squeeze_double (u v : List Char) :
    squeeze (u ++ '_' :: '_' :: v) = squeeze (u ++ '_' :: v) := by
  induction u with
  | nil => rw [List.nil_append, squeeze, if_pos ⟨rfl, rfl⟩, List.nil_append]
  | cons c u ih =>
      apply squeeze_cons_congr
      · cases u <;> rfl
      · exact ih

def startsWithCapital (s : List Char) : Bool := s.head?.any Char.isUpper

def endsInCapital (s : List Char) : Bool := s.getLast?.any Char.isUpper

theorem snakeChars_cons_append (c : Char) (s rest : List Char) :
    snakeChars (c :: s ++ rest) =
      squeeze ((c.toLower :: splitWords false s) ++ splitWords (endsInCapital s) rest) := by
  have last : (s.getLast?.map Char.isUpper).getD false = endsInCapital s := by
    rw [endsInCapital]
    cases s.getLast? <;> rfl
  rw [List.cons_append, snakeChars, splitWords_append, last, List.cons_append]

theorem snakeChars_first (c d : Char) (s : List Char) (same : c.toLower = d.toLower) :
    snakeChars (c :: s) = snakeChars (d :: s) := by
  rw [snakeChars, snakeChars, same]

theorem snakeChars_double (u v : List Char) :
    snakeChars (u ++ '_' :: '_' :: v) = snakeChars (u ++ '_' :: v) := by
  cases u with
  | nil =>
      calc
        snakeChars ('_' :: '_' :: v) = squeeze ([] ++ '_' :: '_' :: splitWords false v) := rfl
        _ = squeeze ([] ++ '_' :: splitWords false v) := squeeze_double [] _
        _ = snakeChars ('_' :: v) := rfl
  | cons c s =>
      rw [snakeChars_cons_append, snakeChars_cons_append]
      exact squeeze_double _ (splitWords false v)

theorem snakeChars_boundary (c d : Char) (s v : List Char) (capital : d.isUpper = true)
    (noRun : endsInCapital s = false) :
    snakeChars (c :: s ++ d :: v) = snakeChars (c :: s ++ '_' :: d :: v) := by
  have word : splitWords false (d :: v) = '_' :: d.toLower :: splitWords true v := by
    simp [splitWords, capital]
  have marked : splitWords false ('_' :: d :: v) = '_' :: splitWords false (d :: v) := rfl
  -- The capital brings an underscore with it; one that stands there already makes two.
  calc
    snakeChars (c :: s ++ d :: v) =
        squeeze ((c.toLower :: splitWords false s) ++ '_' :: d.toLower :: splitWords true v) := by
      rw [snakeChars_cons_append, noRun, word]
    _ = squeeze ((c.toLower :: splitWords false s) ++
        '_' :: '_' :: d.toLower :: splitWords true v) := (squeeze_double _ _).symm
    _ = snakeChars (c :: s ++ '_' :: d :: v) := by
      rw [snakeChars_cons_append, noRun, marked, word]

/-- The capital behind `front` continues no run of capitals there. A first character that stands
alone is part of none. -/
structure BeginsWord (front back : String) : Prop where
  nonempty : front ≠ ""
  capital : startsWithCapital back.toList = true
  noRun : front.length = 1 ∨ endsInCapital front.toList = false

instance (front back : String) : Decidable (BeginsWord front back) :=
  decidable_of_iff (front ≠ "" ∧ startsWithCapital back.toList = true ∧
      (front.length = 1 ∨ endsInCapital front.toList = false))
    ⟨fun ⟨nonempty, capital, noRun⟩ => ⟨nonempty, capital, noRun⟩,
      fun word => ⟨word.nonempty, word.capital, word.noRun⟩⟩

theorem endsInCapital_of_noRun (c : Char) (s : List Char)
    (noRun : (c :: s).length = 1 ∨ endsInCapital (c :: s) = false) : endsInCapital s = false := by
  cases s with
  | nil => rfl
  | cons d s => simpa [endsInCapital, List.getLast?_cons] using noRun

theorem BeginsWord.snakeChars_eq {front back : String} (word : BeginsWord front back) :
    snakeChars (front.toList ++ back.toList) = snakeChars (front.toList ++ '_' :: back.toList) := by
  have nonempty : front.toList ≠ [] := by simpa using word.nonempty
  rcases List.exists_cons_of_ne_nil nonempty with ⟨c, s, chars⟩
  rcases (Option.any_eq_true ..).mp word.capital with ⟨d, first, capital⟩
  rcases List.head?_eq_some_iff.mp first with ⟨v, tail⟩
  have noRun := word.noRun
  rw [← String.length_toList, chars] at noRun
  rw [chars, tail]
  exact snakeChars_boundary c d s v capital (endsInCapital_of_noRun c s noRun)

/-- The case of the first letter is lost, and so is how a word is told from the one before: by a
capital, by an underscore and a capital, or by more than one underscore. -/
theorem snakeCase_ignores_spelling :
    (∀ (first : Char) (rest : String),
      snakeCase (String.singleton first.toUpper ++ rest) =
          snakeCase (String.singleton first ++ rest) ∧
        snakeCase (String.singleton first.toLower ++ rest) =
          snakeCase (String.singleton first ++ rest)) ∧
      (∀ front back : String, BeginsWord front back →
        snakeCase (front ++ back) = snakeCase (front ++ "_" ++ back)) ∧
      ∀ front back : String,
        snakeCase (front ++ "__" ++ back) = snakeCase (front ++ "_" ++ back) := by
  refine ⟨?_, ?_, ?_⟩
  · intro first rest
    have raised := snakeChars_first first.toUpper first rest.toList (toLower_toUpper first)
    have lowered := snakeChars_first first.toLower first rest.toList
      (toLower_of_low _ (not_isUpper_toLower first))
    constructor
    · simpa [snakeCase] using congrArg String.ofList raised
    · simpa [snakeCase] using congrArg String.ofList lowered
  · intro front back word
    have same := congrArg String.ofList word.snakeChars_eq
    simpa [snakeCase] using same
  · intro front back
    have same := congrArg String.ofList (snakeChars_double front.toList back.toList)
    simpa [snakeCase] using same

theorem snakeCase_ignores_spelling_sample :
    BeginsWord "H" "PRate" ∧ BeginsWord "isÉ" "HPBar" ∧ ¬ BeginsWord "isHP" "Bar" ∧
      snakeCase ("H" ++ "PRate") = snakeCase ("H" ++ "_" ++ "PRate") ∧
      snakeCase ("isÉ" ++ "HPBar") = snakeCase ("isÉ" ++ "_" ++ "HPBar") ∧
      snakeCase ("isHP" ++ "Bar") ≠ snakeCase ("isHP" ++ "_" ++ "Bar") := by
  have lone : BeginsWord "H" "PRate" := by decide
  have foreign : BeginsWord "isÉ" "HPBar" := by decide
  have law := snakeCase_ignores_spelling.2.1
  exact ⟨lone, foreign, by decide, law "H" "PRate" lone, law "isÉ" "HPBar" foreign,
    by decide +kernel⟩

end BinaryRecord
