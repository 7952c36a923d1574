import BinaryRecord.Proofs.SnakeCase
import Mathlib.Data.List.Nodup

/-! What telling names apart does to each of them, and when two of the results still agree in
snake case. Main statements: `getElem?_distinctNames` and `distinctNames_nodup_iff`. -/

namespace BinaryRecord

def repeatsAfter (seen names : List String) (i : Nat) : Bool :=
  names[i]?.any fun name => snakeCase name ∈ seen ++ (names.take i).map snakeCase

def repeats (names : List String) (i : Nat) : Bool := repeatsAfter [] names i

def replacedBefore (names : List String) (i : Nat) : Nat := (List.range i).countP (repeats names)

/-- A name that is replaced takes the snake case of one that stays. -/
def Clashes (names : List String) : Prop :=
  ∃ i j : Fin names.length, repeats names i = true ∧ repeats names j = false ∧
    snakeCase (numbered names[i] (replacedBefore names i)) = snakeCase names[j]

instance (names : List String) : Decidable (Clashes names) :=
  inferInstanceAs (Decidable (∃ i j : Fin names.length, repeats names i = true ∧
    repeats names j = false ∧
    snakeCase (numbered names[i] (replacedBefore names i)) = snakeCase names[j]))

theorem repeatsAfter_zero (seen names : List String) (name : String) :
    repeatsAfter seen (name :: names) 0 = decide (snakeCase name ∈ seen) := by
  simp [repeatsAfter]

theorem repeatsAfter_succ (seen names : List String) (name : String) (i : Nat) :
    repeatsAfter seen (name :: names) (i + 1) =
      repeatsAfter (snakeCase name :: seen) names i := by
  simp only [repeatsAfter, List.getElem?_cons_succ, List.take_succ_cons, List.map_cons]
  congr 1
  funext later
  simp only [List.mem_append, List.mem_cons, decide_eq_decide]
  tauto

theorem countP_repeatsAfter_succ (seen names : List String) (name : String) (i : Nat) :
    (List.range (i + 1)).countP (repeatsAfter seen (name :: names)) =
      (List.range i).countP (repeatsAfter (snakeCase name :: seen) names) +
        if snakeCase name ∈ seen then 1 else 0 := by
  have shifted : repeatsAfter seen (name :: names) ∘ Nat.succ =
      repeatsAfter (snakeCase name :: seen) names := by
    funext j
    exact repeatsAfter_succ seen names name j
  rw [List.range_succ_eq_map, List.countP_cons, List.countP_map, shifted, repeatsAfter_zero]
  simp

/-- The invariant of the pass: what it knows of the names before it is `seen` and `renamed`. -/
theorem getElem?_distinctFrom (names seen : List String) (renamed i : Nat) :
    (distinctFrom seen renamed names)[i]? = names[i]?.map fun name =>
      if repeatsAfter seen names i = true then
        numbered name (renamed + (List.range i).countP (repeatsAfter seen names))
      else name := by
  induction names generalizing seen renamed i with
  | nil => simp [distinctFrom]
  | cons name names ih =>
      cases i with
      | zero =>
          simp only [distinctFrom, repeatsAfter_zero, decide_eq_true_eq]
          split <;> simp
      | succ i =>
          simp only [distinctFrom, repeatsAfter_succ, countP_repeatsAfter_succ]
          split
          · simp only [List.getElem?_cons_succ, ih, Nat.add_assoc, Nat.add_comm 1]
          · simp only [List.getElem?_cons_succ, ih, Nat.add_zero]

theorem getElem?_distinctNames (names : List String) (i : Nat) :
    (distinctNames names)[i]? = names[i]?.map fun name =>
      if repeats names i = true then numbered name (replacedBefore names i) else name := by
  have pass := getElem?_distinctFrom names [] 0 i
  simp only [Nat.zero_add] at pass
  exact pass

theorem replacedBefore_succ (names : List String) (i : Nat) :
    replacedBefore names (i + 1) =
      replacedBefore names i + if repeats names i = true then 1 else 0 := by
  simp [replacedBefore, List.range_succ]

theorem replacedBefore_mono (names : List String) (i j : Nat) (le : i ≤ j) :
    replacedBefore names i ≤ replacedBefore names j := by
  induction le with
  | refl => exact Nat.le_refl _
  | step _ ih =>
      rw [Nat.succ_eq_add_one, replacedBefore_succ]
      omega

theorem replacedBefore_lt (names : List String) (i j : Nat) (lt : i < j)
    (again : repeats names i = true) : replacedBefore names i < replacedBefore names j := by
  have mono := replacedBefore_mono names (i + 1) j lt
  rw [replacedBefore_succ, if_pos again] at mono
  omega

theorem repeats_iff (names : List String) (i : Nat) :
    repeats names i = true ↔
      ∃ j < i, ∃ earlier name, names[j]? = some earlier ∧ names[i]? = some name ∧
        snakeCase earlier = snakeCase name := by
  simp only [repeats, repeatsAfter, Option.any_eq_true, decide_eq_true_eq, List.nil_append,
    List.mem_map]
  constructor
  · rintro ⟨name, nameAt, earlier, inside, same⟩
    rcases List.mem_iff_getElem?.mp inside with ⟨j, earlierAt⟩
    rw [List.getElem?_take] at earlierAt
    split at earlierAt
    · next lt => exact ⟨j, lt, earlier, name, earlierAt, nameAt, same⟩
    · exact absurd earlierAt (by simp)
  · rintro ⟨j, lt, earlier, name, earlierAt, nameAt, same⟩
    refine ⟨name, nameAt, earlier, List.mem_of_getElem? (i := j) ?_, same⟩
    rw [List.getElem?_take_of_lt lt, earlierAt]

theorem distinctNames_eq_some (names : List String) (i : Nat) (final : String)
    (finalAt : (distinctNames names)[i]? = some final) :
    ∃ name, names[i]? = some name ∧
      ((repeats names i = false ∧ final = name) ∨
        (repeats names i = true ∧ final = numbered name (replacedBefore names i))) := by
  rw [getElem?_distinctNames, Option.map_eq_some_iff] at finalAt
  rcases finalAt with ⟨name, nameAt, rfl⟩
  refine ⟨name, nameAt, ?_⟩
  cases again : repeats names i with
  | false => exact .inl ⟨rfl, by simp⟩
  | true => exact .inr ⟨rfl, by simp⟩

theorem eq_of_same_kept (names : List String) (i j : Nat) (first second : String)
    (firstAt : names[i]? = some first) (secondAt : names[j]? = some second)
    (firstStays : repeats names i = false) (secondStays : repeats names j = false)
    (same : snakeCase first = snakeCase second) : i = j := by
  rcases Nat.lt_trichotomy i j with lt | eq | gt
  · have met := (repeats_iff names j).mpr ⟨i, lt, first, second, firstAt, secondAt, same⟩
    rw [met] at secondStays
    exact absurd secondStays (by simp)
  · exact eq
  · have met := (repeats_iff names i).mpr ⟨j, gt, second, first, secondAt, firstAt, same.symm⟩
    rw [met] at firstStays
    exact absurd firstStays (by simp)

/-- No number is given twice, and snake case keeps it. -/
theorem eq_of_same_replaced (names : List String) (i j : Nat) (first second : String)
    (firstAgain : repeats names i = true) (secondAgain : repeats names j = true)
    (same : snakeCase (numbered first (replacedBefore names i)) =
      snakeCase (numbered second (replacedBefore names j))) : i = j := by
  rcases snakeCase_numbered first (replacedBefore names i) with ⟨stem, firstSnake⟩
  rcases snakeCase_numbered second (replacedBefore names j) with ⟨otherStem, secondSnake⟩
  rw [firstSnake, secondSnake] at same
  have sameNumber := (numbered_inj stem otherStem _ _ same).2
  rcases Nat.lt_trichotomy i j with lt | eq | gt
  · have fewer := replacedBefore_lt names i j lt firstAgain
    omega
  · exact eq
  · have fewer := replacedBefore_lt names j i gt secondAgain
    omega

structure Meets (names : List String) (i j : Nat) : Prop where
  again : repeats names i = true
  stays : repeats names j = false
  same : ∃ replaced kept, names[i]? = some replaced ∧ names[j]? = some kept ∧
    snakeCase (numbered replaced (replacedBefore names i)) = snakeCase kept

theorem Meets.clashes {names : List String} {i j : Nat} (meets : Meets names i j) :
    Clashes names := by
  rcases meets.same with ⟨_, _, replacedAt, keptAt, same⟩
  rcases List.getElem?_eq_some_iff.mp replacedAt with ⟨replacedBound, rfl⟩
  rcases List.getElem?_eq_some_iff.mp keptAt with ⟨keptBound, rfl⟩
  exact ⟨⟨i, replacedBound⟩, ⟨j, keptBound⟩, meets.again, meets.stays, same⟩

/-- Two names that both stay, or are both replaced, never end up alike. -/
theorem meets_of_same (names : List String) (i j : Nat) (first second : String) (apart : i ≠ j)
    (firstAt : (distinctNames names)[i]? = some first)
    (secondAt : (distinctNames names)[j]? = some second)
    (same : snakeCase first = snakeCase second) : Meets names i j ∨ Meets names j i := by
  rcases distinctNames_eq_some names i first firstAt with ⟨name, nameAt, firstIs⟩
  rcases distinctNames_eq_some names j second secondAt with ⟨other, otherAt, secondIs⟩
  rcases firstIs with ⟨stays, rfl⟩ | ⟨again, rfl⟩
  · rcases secondIs with ⟨otherStays, rfl⟩ | ⟨otherAgain, rfl⟩
    · exact absurd (eq_of_same_kept names i j _ _ nameAt otherAt stays otherStays same) apart
    · exact .inr ⟨otherAgain, stays, other, first, otherAt, nameAt, same.symm⟩
  · rcases secondIs with ⟨otherStays, rfl⟩ | ⟨otherAgain, rfl⟩
    · exact .inl ⟨again, otherStays, name, second, nameAt, otherAt, same⟩
    · exact absurd (eq_of_same_replaced names i j _ _ again otherAgain same) apart

theorem exists_same_of_clashes (names : List String) (clashes : Clashes names) :
    ∃ (i j : Nat) (first second : String), i ≠ j ∧ (distinctNames names)[i]? = some first ∧
      (distinctNames names)[j]? = some second ∧ snakeCase first = snakeCase second := by
  rcases clashes with ⟨i, j, again, stays, same⟩
  refine ⟨i, j, numbered names[i] (replacedBefore names i), names[j], ?_, ?_, ?_, same⟩
  · intro samePlace
    rw [samePlace, stays] at again
    exact absurd again (by simp)
  · simp [getElem?_distinctNames, again]
  · simp [getElem?_distinctNames, stays]

theorem distinctNames_nodup_iff (names : List String) :
    ((distinctNames names).map snakeCase).Nodup ↔ ¬ Clashes names := by
  constructor
  · intro nodup clashes
    rcases exists_same_of_clashes names clashes with
      ⟨i, j, first, second, apart, firstAt, secondAt, same⟩
    have inBounds : i < ((distinctNames names).map snakeCase).length := by
      simpa using (List.getElem?_eq_some_iff.mp firstAt).1
    have sameAt : ((distinctNames names).map snakeCase)[i]? =
        ((distinctNames names).map snakeCase)[j]? := by
      simp [firstAt, secondAt, same]
    exact apart ((List.getElem?_inj inBounds nodup).mp sameAt)
  · intro clean
    rw [List.nodup_iff_getElem?_ne_getElem?]
    intro i j lt bound same
    have inBounds : j < (distinctNames names).length := by simpa using bound
    have firstAt := List.getElem?_eq_getElem (Nat.lt_trans lt inBounds)
    have secondAt := List.getElem?_eq_getElem inBounds
    simp only [List.getElem?_map, firstAt, secondAt, Option.map_some, Option.some.injEq] at same
    rcases meets_of_same names i j _ _ (Nat.ne_of_lt lt) firstAt secondAt same with meets | meets
    · exact clean meets.clashes
    · exact clean meets.clashes

theorem distinctFrom_prefix_append (names more seen : List String) (renamed : Nat) :
    distinctFrom seen renamed names <+: distinctFrom seen renamed (names ++ more) := by
  induction names generalizing seen renamed with
  | nil => exact List.nil_prefix
  | cons name names ih =>
      simp only [List.cons_append, distinctFrom]
      split
      · exact (List.prefix_cons_inj _).mpr (ih _ _)
      · exact (List.prefix_cons_inj _).mpr (ih _ _)

/-- The pass leaves names alone that it has not met and that do not meet each other, and goes on
behind them with their snake case in mind. -/
theorem distinctFrom_append_of_apart (names more seen : List String) (renamed : Nat)
    (apart : (names.map snakeCase).Nodup) (fresh : ∀ name ∈ names, snakeCase name ∉ seen) :
    distinctFrom seen renamed (names ++ more) =
      names ++ distinctFrom ((names.map snakeCase).reverse ++ seen) renamed more := by
  induction names generalizing seen with
  | nil => rfl
  | cons name names ih =>
      rw [List.map_cons, List.nodup_cons] at apart
      have laterFresh : ∀ later ∈ names, snakeCase later ∉ snakeCase name :: seen := by
        intro later member met
        rcases List.mem_cons.mp met with same | before
        · exact apart.1 (List.mem_map.mpr ⟨later, member, same⟩)
        · exact fresh later (List.mem_cons_of_mem _ member) before
      simp only [List.cons_append, distinctFrom]
      rw [if_neg (fresh name (by simp)), ih _ apart.2 laterFresh]
      simp

theorem distinctFrom_eq_self (names seen : List String) (renamed : Nat)
    (apart : (names.map snakeCase).Nodup) (fresh : ∀ name ∈ names, snakeCase name ∉ seen) :
    distinctFrom seen renamed names = names := by
  have pass := distinctFrom_append_of_apart names [] seen renamed apart fresh
  simpa [distinctFrom] using pass

example : Clashes ["a", "a", "a_0"] := by decide +kernel

example : ¬ Clashes ["a", "A", "a"] := by decide +kernel

variable {α : Type} [HasName α]

theorem getElem?_distinct (items : List α) (i : Nat) :
    (distinct items)[i]? = items[i]?.map fun item =>
      if repeats (items.map nameOf) i = true then
        withName item (numbered (nameOf item) (replacedBefore (items.map nameOf) i))
      else item := by
  rw [distinct, List.getElem?_zipWith, getElem?_distinctNames, List.getElem?_map]
  cases items[i]? with
  | none => rfl
  | some item =>
      simp only [Option.map_some]
      split
      · rfl
      · rw [HasName.withName_nameOf]

theorem map_nameOf_distinct (items : List α) :
    (distinct items).map nameOf = distinctNames (items.map nameOf) := by
  apply List.ext_getElem?
  intro i
  rw [List.getElem?_map, getElem?_distinct, getElem?_distinctNames, List.getElem?_map]
  cases items[i]? with
  | none => rfl
  | some item =>
      simp only [Option.map_some]
      split
      · rw [HasName.nameOf_withName]
      · rfl

theorem distinct_prefix_append (items more : List α) :
    distinct items <+: distinct (items ++ more) := by
  obtain ⟨later, names⟩ : distinctNames (items.map nameOf) <+:
      distinctNames (items.map nameOf ++ more.map nameOf) := distinctFrom_prefix_append _ _ [] 0
  have sameLength : items.length = (distinctNames (items.map nameOf)).length := by
    rw [distinctNames, distinctFrom_length, List.length_map]
  rw [distinct, distinct, List.map_append, ← names]
  exact ⟨_, (List.zipWith_append sameLength).symm⟩

theorem zipWith_withName_self (items : List α) :
    List.zipWith withName items (items.map nameOf) = items := by
  rw [List.zipWith_map_right, List.zipWith_self]
  simp [HasName.withName_nameOf]

theorem distinct_eq_self (items : List α) (apart : DistinctNames items) :
    distinct items = items := by
  have kept : distinctNames (items.map nameOf) = items.map nameOf := by
    apply distinctFrom_eq_self
    · rw [List.map_map]
      exact apart
    · simp
  rw [distinct, kept, zipWith_withName_self]

theorem distinctNames_distinct_iff (items : List α) :
    DistinctNames (distinct items) ↔ ¬ Clashes (items.map nameOf) := by
  rw [← distinctNames_nodup_iff, ← map_nameOf_distinct, List.map_map]
  rfl

end BinaryRecord
