import BinaryRecord.Name
import Mathlib.Data.List.Destutter

/-! Snake case of names that end in a number, and what snake case keeps of any name. Main
statements: `snakeCase_numbered`, `snakeChars_subset` and `letterCount_snakeCase`. -/

namespace BinaryRecord

def Parted (c d : Char) : Prop := ¬ (c = '_' ∧ d = '_')

instance : DecidableRel Parted := fun c d => inferInstanceAs (Decidable (¬ (c = '_' ∧ d = '_')))

theorem squeeze_cons_eq (c : Char) (s : List Char) :
    squeeze (c :: s) = s.destutter' Parted c := by
  induction s generalizing c with
  | nil => rfl
  | cons d s ih =>
      by_cases both : c = '_' ∧ d = '_'
      · have run : ¬ Parted c d := not_not_intro both
        rw [squeeze, if_pos both, List.destutter'_cons_neg s run, ih, both.1, both.2]
      · have apart : Parted c d := both
        rw [squeeze, if_neg both, List.destutter'_cons_pos s apart, ih]

theorem squeeze_eq_destutter (s : List Char) : squeeze s = s.destutter Parted := by
  cases s with
  | nil => rfl
  | cons c s => exact squeeze_cons_eq c s

theorem mem_of_mem_squeeze (s : List Char) (c : Char) (member : c ∈ squeeze s) : c ∈ s := by
  rw [squeeze_eq_destutter] at member
  exact (List.destutter_sublist Parted s).mem member

theorem squeeze_cons (c : Char) (s : List Char) : ∃ lead, squeeze (c :: s) = lead ++ squeeze s := by
  cases s with
  | nil => exact ⟨[c], rfl⟩
  | cons d s =>
      rw [squeeze]
      split
      · exact ⟨[], rfl⟩
      · exact ⟨[c], rfl⟩

theorem squeeze_append (s rest : List Char) :
    ∃ lead, squeeze (s ++ rest) = lead ++ squeeze rest := by
  induction s with
  | nil => exact ⟨[], rfl⟩
  | cons c s ih =>
      rcases ih with ⟨lead, tail⟩
      rcases squeeze_cons c (s ++ rest) with ⟨first, head⟩
      refine ⟨first ++ lead, ?_⟩
      rw [List.cons_append, head, tail, List.append_assoc]

theorem squeeze_cons_of_clean (c : Char) (s : List Char) (clean : ∀ d ∈ s, d ≠ '_') :
    squeeze (c :: s) = c :: s := by
  induction s generalizing c with
  | nil => rfl
  | cons d s ih =>
      have apart : ¬ (c = '_' ∧ d = '_') := fun both => clean d (by simp) both.2
      rw [squeeze, if_neg apart, ih d (fun e member => clean e (by simp [member]))]

theorem splitWords_of_low (s : List Char) (afterCapital : Bool)
    (low : ∀ c ∈ s, c.isUpper = false) : splitWords afterCapital s = s := by
  induction s generalizing afterCapital with
  | nil => rfl
  | cons c s ih =>
      have lowFirst := low c (by simp)
      simp only [splitWords, lowFirst, Bool.false_eq_true, if_false]
      rw [ih false (fun d member => low d (by simp [member]))]

/-- What comes behind a text depends on it by its last character only. -/
theorem splitWords_append (s rest : List Char) (afterCapital : Bool) :
    splitWords afterCapital (s ++ rest) = splitWords afterCapital s ++
      splitWords ((s.getLast?.map Char.isUpper).getD afterCapital) rest := by
  induction s generalizing afterCapital with
  | nil => rfl
  | cons c s ih =>
      have last : ((c :: s).getLast?.map Char.isUpper).getD afterCapital =
          (s.getLast?.map Char.isUpper).getD c.isUpper := by
        rw [List.getLast?_cons]
        cases s.getLast? <;> rfl
      rw [last]
      cases upper : c.isUpper with
      | false => simp [splitWords, upper, ih]
      | true => cases afterCapital <;> simp [splitWords, upper, ih]

/-- A tail that starts with an underscore and has no other goes through snake case as it is. -/
theorem snakeChars_append (s tail : List Char) (low : ∀ c ∈ tail, c.isUpper = false)
    (clean : ∀ c ∈ tail, c ≠ '_') :
    ∃ stem, snakeChars (s ++ '_' :: tail) = stem ++ '_' :: tail := by
  have lowAll : ∀ c ∈ '_' :: tail, c.isUpper = false := by
    intro c member
    rcases List.mem_cons.mp member with rfl | inside
    · decide
    · exact low c inside
  cases s with
  | nil =>
      refine ⟨[], ?_⟩
      simp only [List.nil_append, snakeChars, splitWords_of_low tail false low]
      exact squeeze_cons_of_clean '_' tail clean
  | cons c s =>
      rcases squeeze_append (c.toLower :: splitWords false s) ('_' :: tail) with ⟨stem, squeezed⟩
      refine ⟨stem, ?_⟩
      simp only [List.cons_append, snakeChars, splitWords_append, splitWords_of_low _ _ lowAll]
      rw [← List.cons_append, squeezed, squeeze_cons_of_clean '_' tail clean]

theorem toLower_of_low (c : Char) (low : c.isUpper = false) : c.toLower = c :=
  dif_neg (of_decide_eq_false low)

theorem splitWords_subset (s : List Char) (afterCapital : Bool) :
    splitWords afterCapital s ⊆ '_' :: s.map Char.toLower := by
  induction s generalizing afterCapital with
  | nil => simp [splitWords]
  | cons c s ih =>
      intro d member
      have later := fun after => @ih after d
      simp only [splitWords] at member
      cases upper : c.isUpper with
      | false => grind [toLower_of_low]
      | true => grind

theorem snakeChars_subset (s : List Char) : snakeChars s ⊆ '_' :: s.map Char.toLower := by
  cases s with
  | nil => simp [snakeChars]
  | cons c s =>
      intro d member
      have found := @splitWords_subset s false d
      rcases List.mem_cons.mp (mem_of_mem_squeeze _ d member) with rfl | inside
      · simp
      · grind

theorem isLower_toLower (c : Char) (upper : c.isUpper = true) : c.toLower.isLower = true := by
  have range : 'A'.val ≤ c.val ∧ c.val ≤ 'Z'.val := of_decide_eq_true upper
  have value : c.toLower.val = c.val + 32 := congrArg Char.val (dif_pos range)
  have first : 'A'.val.toNat = 65 := rfl
  have last : 'Z'.val.toNat = 90 := rfl
  rw [UInt32.le_iff_toNat_le, UInt32.le_iff_toNat_le] at range
  have least : 'a'.val ≤ c.toLower.val := by
    rw [value, UInt32.le_iff_toNat_le, UInt32.toNat_add]
    change 97 ≤ (c.val.toNat + 32) % 4294967296
    omega
  have most : c.toLower.val ≤ 'z'.val := by
    rw [value, UInt32.le_iff_toNat_le, UInt32.toNat_add]
    change (c.val.toNat + 32) % 4294967296 ≤ 122
    omega
  exact Bool.and_eq_true_iff.mpr ⟨decide_eq_true least, decide_eq_true most⟩

theorem not_isUpper_of_isLower (c : Char) (lower : c.isLower = true) : c.isUpper = false := by
  have least : 'a'.val ≤ c.val := of_decide_eq_true (Bool.and_eq_true_iff.mp lower).1
  apply decide_eq_false
  intro upper
  exact absurd (UInt32.le_trans least upper.2) (by decide)

theorem not_isUpper_toLower (c : Char) : c.toLower.isUpper = false := by
  cases upper : c.isUpper with
  | false => rwa [toLower_of_low c upper]
  | true => exact not_isUpper_of_isLower _ (isLower_toLower c upper)

theorem toLower_toUpper (c : Char) : c.toUpper.toLower = c.toLower := by
  by_cases range : 'a'.val ≤ c.val ∧ c.val ≤ 'z'.val
  · have lower : c.isLower = true :=
      Bool.and_eq_true_iff.mpr ⟨decide_eq_true range.1, decide_eq_true range.2⟩
    have isUpper : c.toUpper = ⟨c.val + ('A'.val - 'a'.val), _⟩ := dif_pos range
    have value : c.toUpper.val = c.val + ('A'.val - 'a'.val) := by rw [isUpper]
    have first : 'a'.val.toNat = 97 := rfl
    have last : 'z'.val.toNat = 122 := rfl
    rw [UInt32.le_iff_toNat_le, UInt32.le_iff_toNat_le] at range
    have upper : 'A'.val ≤ c.toUpper.val ∧ c.toUpper.val ≤ 'Z'.val := by
      rw [value, UInt32.le_iff_toNat_le, UInt32.le_iff_toNat_le, UInt32.toNat_add]
      change 65 ≤ (c.val.toNat + 4294967264) % 4294967296 ∧
        (c.val.toNat + 4294967264) % 4294967296 ≤ 90
      omega
    have lowered : c.toUpper.toLower.val = c.toUpper.val + 32 := congrArg Char.val (dif_pos upper)
    have there : ('A'.val - 'a'.val) + 32 = 0 := by decide
    rw [toLower_of_low c (not_isUpper_of_isLower c lower)]
    apply Char.ext
    rw [lowered, value, UInt32.add_assoc, there, UInt32.add_zero]
  · have same : c.toUpper = c := dif_neg range
    rw [same]

theorem toLower_eq_underscore_iff (c : Char) : c.toLower = '_' ↔ c = '_' := by
  cases upper : c.isUpper with
  | false => rw [toLower_of_low c upper]
  | true =>
      have letter := isLower_toLower c upper
      constructor
      · intro same
        rw [same] at letter
        exact absurd letter (by decide)
      · rintro rfl
        exact absurd upper (by decide)

def letterCount (name : String) : Nat := name.toList.countP (· ≠ '_')

theorem countP_squeeze (s : List Char) : (squeeze s).countP (· ≠ '_') = s.countP (· ≠ '_') := by
  induction s with
  | nil => rfl
  | cons c s ih =>
      cases s with
      | nil => rfl
      | cons d s =>
          rw [squeeze, List.countP_cons (l := d :: s), ← ih]
          split
          · next both => simp [both.1]
          · rw [List.countP_cons]

theorem countP_splitWords (s : List Char) (afterCapital : Bool) :
    (splitWords afterCapital s).countP (· ≠ '_') = s.countP (· ≠ '_') := by
  induction s generalizing afterCapital with
  | nil => rfl
  | cons c s ih =>
      simp only [splitWords]
      split
      · split
        · simp only [List.countP_cons, ih, ne_eq, toLower_eq_underscore_iff]
        · simp only [List.countP_cons, ih, ne_eq, toLower_eq_underscore_iff]
          simp
      · simp only [List.countP_cons, ih]

theorem letterCount_snakeCase (name : String) :
    letterCount (snakeCase name) = letterCount name := by
  simp only [letterCount, snakeCase, String.toList_ofList]
  cases name.toList with
  | nil => rfl
  | cons c s =>
      simp only [snakeChars, countP_squeeze, List.countP_cons, countP_splitWords, ne_eq,
        toLower_eq_underscore_iff]

theorem isUpper_of_isDigit (c : Char) (digit : c.isDigit = true) : c.isUpper = false := by
  have outside : ¬ (c.val ≥ 'A'.val ∧ c.val ≤ 'Z'.val) := by
    intro upper
    simp only [Char.isDigit, Bool.and_eq_true, decide_eq_true_eq, UInt32.le_iff_toNat_le,
      ge_iff_le] at digit upper
    have nine : '9'.val.toNat = 57 := rfl
    have capital : 'A'.val.toNat = 65 := rfl
    omega
  exact decide_eq_false outside

theorem ne_underscore_of_mem_decimal (n : Nat) (c : Char) (member : c ∈ (decimal n).toList) :
    c ≠ '_' := by
  rintro rfl
  exact absurd (isDigit_of_mem_decimal n '_' member) (by decide)

/-- The number after the last underscore outlives snake case. -/
theorem snakeCase_numbered (name : String) (number : Nat) :
    ∃ stem, snakeCase (numbered name number) = numbered stem number := by
  obtain ⟨stem, kept⟩ := snakeChars_append name.toList (decimal number).toList
    (fun c member => isUpper_of_isDigit c (isDigit_of_mem_decimal number c member))
    (ne_underscore_of_mem_decimal number)
  refine ⟨String.ofList stem, ?_⟩
  apply String.toList_inj.mp
  simpa [snakeCase, numbered] using kept

theorem toList_numbered (name : String) (number : Nat) :
    (numbered name number).toList = name.toList ++ '_' :: (decimal number).toList := by
  simp [numbered]

theorem letterCount_numbered (name : String) (number : Nat) :
    letterCount name < letterCount (numbered name number) := by
  have digits : (decimal number).toList.countP (· ≠ '_') = (decimal number).toList.length := by
    apply List.countP_eq_length.mpr
    intro c member
    simpa using ne_underscore_of_mem_decimal number c member
  have some := List.length_pos_iff.mpr (isRun_decimal number).nonempty
  simp only [letterCount, toList_numbered, List.countP_append, List.countP_cons, digits]
  omega

theorem numbered_ne_self (name : String) (number : Nat) : numbered name number ≠ name := by
  intro same
  have more := letterCount_numbered name number
  rw [same] at more
  exact Nat.lt_irrefl _ more

theorem numbered_inj (first second : String) (m n : Nat)
    (same : numbered first m = numbered second n) : first = second ∧ m = n := by
  have reversed := congrArg (fun name => name.toList.reverse) same
  simp only [toList_numbered, List.reverse_append, List.reverse_cons, List.append_assoc,
    List.cons_append, List.nil_append] at reversed
  obtain ⟨digits, stems⟩ := append_inj_of_stops (fun c => c ≠ '_') _ _ _ _
    (by simpa using ne_underscore_of_mem_decimal m) (by simpa using ne_underscore_of_mem_decimal n)
    (stops_cons _ '_' _ (by decide)) (stops_cons _ '_' _ (by decide)) reversed
  constructor
  · apply String.toList_inj.mp
    simpa using stems
  · apply decimal_injective
    apply String.toList_inj.mp
    simpa using digits

end BinaryRecord
