import BinaryRecord.Proofs.Renaming

namespace BinaryRecord

theorem map_countP_filter_range (holds : Nat → Bool) (n : Nat) :
    ((List.range n).filter holds).map (fun i => (List.range i).countP holds) =
      List.range ((List.range n).countP holds) := by
  induction n with
  | zero => rfl
  | succ n ih =>
      rw [List.range_succ, List.filter_append, List.map_append, ih, List.countP_append]
      cases here : holds n with
      | false => simp [here]
      | true => simp [here, List.range_succ]

variable {α : Type} [HasName α]

def renamedAt (items : List α) (i : Nat) : Bool :=
  (distinct items)[i]?.map nameOf ≠ items[i]?.map nameOf

def renamedBefore (items : List α) (i : Nat) : Nat := (List.range i).countP (renamedAt items)

def AlikeAt (items : List α) (i j : Nat) : Prop :=
  ∃ first second, items[i]? = some first ∧ items[j]? = some second ∧
    snakeCase (nameOf first) = snakeCase (nameOf second)

theorem renamedAt_eq_repeats (items : List α) (i : Nat) :
    renamedAt items i = repeats (items.map nameOf) i := by
  rw [renamedAt, getElem?_distinct]
  cases itemAt : items[i]? with
  | none => simp [repeats, repeatsAfter, itemAt]
  | some item =>
      cases again : repeats (items.map nameOf) i with
      | false => simp
      | true => simp [HasName.nameOf_withName, numbered_ne_self]

theorem renamedBefore_eq_replacedBefore (items : List α) (i : Nat) :
    renamedBefore items i = replacedBefore (items.map nameOf) i := by
  rw [renamedBefore, replacedBefore, funext (renamedAt_eq_repeats items)]

theorem renamedAt_iff (items : List α) (i : Nat) :
    renamedAt items i = true ↔ ∃ j < i, AlikeAt items j i := by
  rw [renamedAt_eq_repeats, repeats_iff]
  simp only [List.getElem?_map, Option.map_eq_some_iff, AlikeAt]
  constructor
  · rintro ⟨j, lt, _, _, ⟨earlier, earlierAt, rfl⟩, ⟨item, itemAt, rfl⟩, same⟩
    exact ⟨j, lt, earlier, item, earlierAt, itemAt, same⟩
  · rintro ⟨j, lt, earlier, item, earlierAt, itemAt, same⟩
    exact ⟨j, lt, _, _, ⟨earlier, earlierAt, rfl⟩, ⟨item, itemAt, rfl⟩, same⟩

theorem getElem?_distinct_renamed (items : List α) (i : Nat) :
    (distinct items)[i]? = items[i]?.map fun item =>
      if renamedAt items i = true then
        withName item (numbered (nameOf item) (renamedBefore items i))
      else item := by
  rw [getElem?_distinct, renamedAt_eq_repeats, renamedBefore_eq_replacedBefore]

theorem map_withName_distinct (items : List α) (name : String) :
    (distinct items).map (withName · name) = items.map (withName · name) := by
  apply List.ext_getElem?
  intro i
  simp only [List.getElem?_map, getElem?_distinct, Option.map_map]
  congr 1
  funext item
  simp only [Function.comp_apply]
  split
  · exact HasName.withName_withName item _ name
  · rfl

theorem distinctNames_iff_alikeAt (items : List α) :
    DistinctNames items ↔ ∀ i j, i < j → ¬ AlikeAt items i j := by
  rw [DistinctNames, List.nodup_iff_getElem?_ne_getElem?]
  simp only [List.length_map, List.getElem?_map]
  constructor
  · rintro apart i j lt ⟨first, second, firstAt, secondAt, same⟩
    apply apart i j lt (List.getElem?_eq_some_iff.mp secondAt).1
    rw [firstAt, secondAt, Option.map_some, Option.map_some, same]
  · intro apart i j lt bound same
    have firstAt := List.getElem?_eq_getElem (Nat.lt_trans lt bound)
    have secondAt := List.getElem?_eq_getElem bound
    rw [firstAt, secondAt, Option.map_some, Option.map_some, Option.some.injEq] at same
    exact apart i j lt ⟨_, _, firstAt, secondAt, same⟩

theorem distinct_eq_self_iff (items : List α) : distinct items = items ↔ DistinctNames items := by
  constructor
  · intro kept
    rw [distinctNames_iff_alikeAt]
    intro i j lt alike
    have renamed := (renamedAt_iff items j).mpr ⟨i, lt, alike⟩
    simp [renamedAt, kept] at renamed
  · exact distinct_eq_self items

/-- The exact rule of the pass. What an item is compared with, and what its number counts, are the
items before it as they were given. -/
theorem distinct_exact (items : List α) :
    (distinct items).length = items.length ∧
      (∀ name, (distinct items).map (withName · name) = items.map (withName · name)) ∧
      (∀ i, renamedAt items i = true ↔ ∃ j < i, AlikeAt items j i) ∧
      (∀ i, (distinct items)[i]? = items[i]?.map fun item =>
        if renamedAt items i = true then
          withName item (numbered (nameOf item) (renamedBefore items i))
        else item) ∧
      ((List.range items.length).filter (renamedAt items)).map (renamedBefore items) =
        List.range (renamedBefore items items.length) ∧
      (distinct items = items ↔ DistinctNames items) := by
  refine ⟨distinct_length items, map_withName_distinct items, renamedAt_iff items,
    getElem?_distinct_renamed items, ?_, distinct_eq_self_iff items⟩
  exact map_countP_filter_range (renamedAt items) items.length

def EndsInNumber (name : String) : Prop :=
  ∃ stem digits, IsRun Char.isDigit digits ∧ name.toList = stem ++ '_' :: digits

theorem endsInNumber_numbered (name : String) (number : Nat) :
    EndsInNumber (numbered name number) :=
  ⟨name.toList, (decimal number).toList, isRun_decimal number, toList_numbered name number⟩

theorem endsInNumber_iff (name : String) :
    EndsInNumber name ↔
      (readRun? Char.isDigit name.toList.reverse).any (fun cut => cut.2.head? = some '_') =
        true := by
  simp only [Option.any_eq_true, decide_eq_true_eq]
  constructor
  · rintro ⟨stem, digits, numeral, chars⟩
    refine ⟨(digits.reverse, '_' :: stem.reverse), ?_, rfl⟩
    rw [chars, List.reverse_append, List.reverse_cons, List.append_assoc, List.singleton_append]
    exact readRun?_append Char.isDigit _ _ numeral.reverse (stops_cons _ '_' _ (by decide))
  · rintro ⟨⟨run, rest⟩, read, underscore⟩
    rcases readRun?_eq_some _ _ _ _ read with ⟨chars, numeral⟩
    rcases List.head?_eq_some_iff.mp underscore with ⟨stem, rfl⟩
    refine ⟨stem.reverse, run.reverse, numeral.reverse, ?_⟩
    rw [← List.reverse_reverse name.toList, chars]
    simp

instance (name : String) : Decidable (EndsInNumber name) :=
  decidable_of_iff' _ (endsInNumber_iff name)

/-- The item at place `i` is given the number that, in snake case, the name at place `j` ends in,
and this one stays as it is. -/
structure Overtakes (items : List α) (i j number : Nat) : Prop where
  renamed : ∃ item, items[i]? = some item ∧
    (distinct items)[i]? = some (withName item (numbered (nameOf item) number))
  stays : ∃ item stem, items[j]? = some item ∧ (distinct items)[j]? = some item ∧
    snakeCase (nameOf item) = numbered stem number

theorem Meets.overtakes {items : List α} {i j : Nat} (meets : Meets (items.map nameOf) i j) :
    Overtakes items i j (replacedBefore (items.map nameOf) i) := by
  rcases meets.same with ⟨_, _, replacedAt, keptAt, same⟩
  rw [List.getElem?_map, Option.map_eq_some_iff] at replacedAt keptAt
  rcases replacedAt with ⟨replaced, replacedAt, rfl⟩
  rcases keptAt with ⟨kept, keptAt, rfl⟩
  rcases snakeCase_numbered (nameOf replaced) (replacedBefore (items.map nameOf) i) with
    ⟨stem, snake⟩
  constructor
  · refine ⟨replaced, replacedAt, ?_⟩
    rw [getElem?_distinct, replacedAt, Option.map_some, if_pos meets.again]
  · refine ⟨kept, stem, keptAt, ?_, same.symm.trans snake⟩
    rw [getElem?_distinct, keptAt, Option.map_some, if_neg (by simp [meets.stays])]

theorem not_clashes_of_unnumbered (names : List String)
    (unnumbered : ∀ name ∈ names, ¬ EndsInNumber (snakeCase name)) : ¬ Clashes names := by
  rintro ⟨i, j, -, -, same⟩
  rcases snakeCase_numbered names[i] (replacedBefore names i) with ⟨stem, snake⟩
  apply unnumbered names[j] (List.getElem_mem _)
  rw [← same, snake]
  exact endsInNumber_numbered stem _

/-- Two items that agree in snake case behind the pass are one that it numbered and one that it left
with such a number at the end. Without such ends the pass has nothing left to do. -/
theorem distinct_collisions (items : List α) :
    (∀ i j, i ≠ j → AlikeAt (distinct items) i j →
      renamedAt items i ≠ renamedAt items j ∧
        ∃ number, Overtakes items i j number ∨ Overtakes items j i number) ∧
      ((∀ item ∈ items, ¬ EndsInNumber (snakeCase (nameOf item))) →
        DistinctNames (distinct items) ∧ distinct (distinct items) = distinct items) := by
  constructor
  · rintro i j apart ⟨first, second, firstAt, secondAt, same⟩
    have firstName : (distinctNames (items.map nameOf))[i]? = some (nameOf first) := by
      rw [← map_nameOf_distinct, List.getElem?_map, firstAt, Option.map_some]
    have secondName : (distinctNames (items.map nameOf))[j]? = some (nameOf second) := by
      rw [← map_nameOf_distinct, List.getElem?_map, secondAt, Option.map_some]
    simp only [renamedAt_eq_repeats]
    rcases meets_of_same _ i j _ _ apart firstName secondName same with meets | meets
    · exact ⟨by simp [meets.again, meets.stays], _, .inl meets.overtakes⟩
    · exact ⟨by simp [meets.again, meets.stays], _, .inr meets.overtakes⟩
  · intro unnumbered
    have apart : DistinctNames (distinct items) := by
      apply (distinctNames_distinct_iff items).mpr
      apply not_clashes_of_unnumbered
      intro name member
      rcases List.mem_map.mp member with ⟨item, inside, rfl⟩
      exact unnumbered item inside
    exact ⟨apart, distinct_eq_self _ apart⟩

def scalars (names : List String) : List Field := names.map fun name => ⟨name, .scalar .u8⟩

def overtaking : List Field := scalars ["isOn", "IsOn", "is__on_0"]

def unnumbered : List Field := scalars ["isOn", "IsOn", "on0", "on_"]

theorem distinct_collisions_sample :
    (AlikeAt (distinct overtaking) 1 2 ∧ renamedAt overtaking 1 ≠ renamedAt overtaking 2 ∧
      ∃ number, Overtakes overtaking 1 2 number ∨ Overtakes overtaking 2 1 number) ∧
      (∀ item ∈ unnumbered, ¬ EndsInNumber (snakeCase (nameOf item))) ∧
      DistinctNames (distinct unnumbered) ∧
      distinct (distinct unnumbered) = distinct unnumbered := by
  have alike : AlikeAt (distinct overtaking) 1 2 :=
    ⟨⟨"IsOn_0", .scalar .u8⟩, ⟨"is__on_0", .scalar .u8⟩, by decide +kernel⟩
  have noNumber : ∀ item ∈ unnumbered, ¬ EndsInNumber (snakeCase (nameOf item)) := by
    decide +kernel
  exact ⟨⟨alike, (distinct_collisions overtaking).1 1 2 (by decide) alike⟩, noNumber,
    (distinct_collisions unnumbered).2 noNumber⟩

end BinaryRecord
