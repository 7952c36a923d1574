import BinaryRecord.Definition.Reading

/-! Which texts define a field, and which field: the parts of a definition decide it, and a text has
only one set of parts. Main statement: `Field.read_eq_ok_iff`. -/

namespace BinaryRecord

inductive Suffix.Gives (number : Numeric) : Suffix → Shape → Prop
  | scalar : Gives number .none (.scalar number)
  | array {count : Nat} (least : 1 ≤ count) (most : count < wordLimit) :
      Gives number (.array count) (.array number count)
  | flag {bits width : Nat} (wide : number.bitWidth? = some width) (least : 1 ≤ bits)
      (most : bits ≤ width) : Gives number (.flag bits) (.flag number bits)

/-- Two ways to cut a text into parts differ at most in the blanks beside a part that is absent. -/
structure DefinitionText.SameParts (first second : DefinitionText) : Prop where
  front : first.front = second.front
  token : first.token = second.token
  between : first.between = second.between
  name : first.name = second.name
  suffix : first.suffix = second.suffix
  default : first.default = second.default
  beforeSuffix : first.suffix ≠ .none → first.beforeSuffix = second.beforeSuffix
  beforeDefault : first.suffix ≠ .none → first.default ≠ .none →
    first.beforeDefault = second.beforeDefault
  back : first.default ≠ .none → first.back = second.back

theorem Numeric.ofToken?_of_mem :
    ∀ entry ∈ typeTokens, Numeric.ofToken? entry.1 = some entry.2 := by
  decide

theorem Numeric.ofToken?_eq_some_iff (token : String) (number : Numeric) :
    Numeric.ofToken? token = some number ↔ (token, number) ∈ typeTokens := by
  constructor
  · intro found
    rcases List.lookup_eq_some_iff.mp found with ⟨front, back, cut, -⟩
    rw [cut]
    simp
  · intro member
    exact Numeric.ofToken?_of_mem (token, number) member

theorem arrayShape_eq_ok_iff (element : Numeric) (count : Nat) (shape : Shape) :
    arrayShape element count = .ok shape ↔ (Suffix.array count).Gives element shape := by
  constructor
  · intro made
    unfold arrayShape at made
    split at made
    · exact absurd made (by simp)
    · next below =>
        split at made
        · exact absurd made (by simp)
        · next above =>
            simp only [Except.ok.injEq] at made
            exact made ▸ .array (by omega) (by omega)
  · intro gives
    cases gives with
    | array least most =>
        rw [arrayShape, if_neg (by omega), if_neg (by omega)]

theorem Numeric.bitWidth?_le (number : Numeric) (width : Nat)
    (wide : number.bitWidth? = some width) : width ≤ 64 := by
  cases number <;> simp [Numeric.bitWidth?] at wide <;> omega

theorem flagShape_eq_ok_iff (token : String) (backing : Numeric) (bits : Nat) (shape : Shape) :
    flagShape token backing bits = .ok shape ↔ (Suffix.flag bits).Gives backing shape := by
  constructor
  · intro made
    unfold flagShape at made
    split at made
    · exact absurd made (by simp)
    · next width wide =>
        split at made
        · exact absurd made (by simp)
        · split at made
          · exact absurd made (by simp)
          · simp only [Except.ok.injEq] at made
            exact made ▸ .flag wide (by omega) (by omega)
  · intro gives
    cases gives with
    | @flag bits width wide least most =>
        have small := backing.bitWidth?_le width wide
        have below : ¬ wordLimit ≤ bits := by
          simp only [wordLimit]
          omega
        simp only [flagShape, wide]
        rw [if_neg below, if_neg (by omega)]

theorem Definition.shape_eq_ok_iff (definition : Definition) (shape : Shape) :
    definition.shape = .ok shape ↔
      ∃ number, (definition.token, number) ∈ typeTokens ∧ definition.suffix.Gives number shape := by
  simp only [← Numeric.ofToken?_eq_some_iff]
  unfold Definition.shape
  cases Numeric.ofToken? definition.token with
  | none => simp
  | some number =>
      simp only [Option.some.injEq, exists_eq_left']
      cases definition.suffix with
      | none =>
          constructor
          · intro made
            simp only [Except.ok.injEq] at made
            exact made ▸ .scalar
          · rintro ⟨⟩
            rfl
      | array count => exact arrayShape_eq_ok_iff number count shape
      | flag bits => exact flagShape_eq_ok_iff definition.token number bits shape

theorem Definition.field_eq_ok_iff (definition : Definition) (field : Field) :
    definition.field = .ok field ↔
      definition.name = field.name ∧ definition.shape = .ok field.shape := by
  unfold Definition.field
  cases definition.shape with
  | error fault => simp [Except.map]
  | ok shape =>
      rcases field with ⟨name, fieldShape⟩
      simp [Except.map]

theorem Field.read_eq_ok_iff_definition (text : String) (field : Field) :
    Field.read text = .ok field ↔
      ∃ definition, Definition.read? text = some definition ∧ definition.field = .ok field := by
  unfold Field.read
  cases Definition.read? text with
  | none => simp
  | some definition => simp

theorem DefinitionText.stops_suffix (text : DefinitionText) (present : text.suffix ≠ .none) :
    Stops isGap (text.suffix.chars ++ text.afterSuffix) := by
  cases suffix : text.suffix with
  | none => exact absurd suffix present
  | array before digits after gapBefore numeral gapAfter =>
      exact stops_cons isGap '[' _ (by decide)
  | flag before digits gapBefore numeral => exact stops_cons isGap ':' _ (by decide)

theorem DefinitionText.head?_skipGap_afterName (text : DefinitionText) :
    (skipGap text.afterName).head? = (text.suffix.chars ++ text.default.chars).head? := by
  rw [afterName, skipGap_append _ _ text.gapSuffix]
  cases suffix : text.suffix with
  | none =>
      simp only [SuffixText.chars, List.nil_append, text.skipGap_afterSuffix]
      cases text.default <;> rfl
  | array before digits after gapBefore numeral gapAfter =>
      simp only [SuffixText.chars, List.cons_append]
      rw [skipGap_of_stops _ (stops_cons isGap '[' _ (by decide))]
      rfl
  | flag before digits gapBefore numeral =>
      simp only [SuffixText.chars, List.cons_append]
      rw [skipGap_of_stops _ (stops_cons isGap ':' _ (by decide))]
      rfl

theorem DefinitionText.default_inj (first second : DefinitionText)
    (same : skipGap first.afterSuffix = skipGap second.afterSuffix) :
    first.default = second.default ∧ (first.default ≠ .none → first.back = second.back) := by
  rw [first.skipGap_afterSuffix, second.skipGap_afterSuffix] at same
  cases firstDefault : first.default with
  | none =>
      cases secondDefault : second.default with
      | none => exact ⟨rfl, fun present => absurd rfl present⟩
      | given before value gapBefore solid => simp [firstDefault, secondDefault] at same
  | given before value gapBefore solid =>
      cases secondDefault : second.default with
      | none => simp [firstDefault, secondDefault] at same
      | given otherBefore otherValue otherGap otherSolid =>
          simp only [firstDefault, secondDefault, List.cons.injEq, true_and] at same
          rcases append_inj_of_stops isGap _ _ _ _ gapBefore otherGap (stops_value _ _ solid)
              (stops_value _ _ otherSolid) same with ⟨sameBefore, atValue⟩
          have backStops := stops_gap_of_isGap _ first.gapBack
          have otherBackStops := stops_gap_of_isGap _ second.gapBack
          rcases append_inj_of_stops (fun c => !isGap c) _ _ _ _ solid.all otherSolid.all
              backStops otherBackStops atValue with ⟨sameValue, back⟩
          subst sameBefore sameValue
          exact ⟨rfl, fun _ => back⟩

theorem DefinitionText.suffix_inj_of_present (first second : DefinitionText)
    (firstPresent : first.suffix ≠ .none) (secondPresent : second.suffix ≠ .none)
    (same : first.afterName = second.afterName) :
    first.suffix = second.suffix ∧ first.beforeSuffix = second.beforeSuffix ∧
      first.afterSuffix = second.afterSuffix := by
  have firstStops := first.stops_suffix firstPresent
  have secondStops := second.stops_suffix secondPresent
  rcases append_inj_of_stops isGap _ _ _ _ first.gapSuffix second.gapSuffix firstStops secondStops
      same with ⟨before, same⟩
  cases firstSuffix : first.suffix with
  | none => exact absurd firstSuffix firstPresent
  | array inner digits outer gapInner numeral gapOuter =>
      cases secondSuffix : second.suffix with
      | none => exact absurd secondSuffix secondPresent
      | flag => simp [firstSuffix, secondSuffix, SuffixText.chars] at same
      | array otherInner otherDigits otherOuter otherGapInner otherNumeral otherGapOuter =>
          simp only [firstSuffix, secondSuffix, SuffixText.chars, List.cons_append,
            List.append_assoc, List.nil_append, List.cons.injEq, true_and] at same
          rcases append_inj_of_stops isGap _ _ _ _ gapInner otherGapInner
              (stops_digits _ _ numeral) (stops_digits _ _ otherNumeral) same with
            ⟨sameInner, atDigits⟩
          rcases append_inj_of_stops Char.isDigit _ _ _ _ numeral.all otherNumeral.all
              (stops_bracket _ _ gapOuter) (stops_bracket _ _ otherGapOuter) atDigits with
            ⟨sameDigits, atOuter⟩
          have closes (rest : List Char) : Stops isGap (']' :: rest) :=
            stops_cons isGap ']' rest (by decide)
          rcases append_inj_of_stops isGap _ _ _ _ gapOuter otherGapOuter (closes _) (closes _)
              atOuter with ⟨sameOuter, atClose⟩
          subst sameInner sameDigits sameOuter
          exact ⟨rfl, before, (List.cons.inj atClose).2⟩
  | flag inner digits gapInner numeral =>
      cases secondSuffix : second.suffix with
      | none => exact absurd secondSuffix secondPresent
      | array => simp [firstSuffix, secondSuffix, SuffixText.chars] at same
      | flag otherInner otherDigits otherGapInner otherNumeral =>
          simp only [firstSuffix, secondSuffix, SuffixText.chars, List.cons_append,
            List.append_assoc, List.cons.injEq, true_and] at same
          rcases append_inj_of_stops isGap _ _ _ _ gapInner otherGapInner
              (stops_digits _ _ numeral) (stops_digits _ _ otherNumeral) same with
            ⟨sameInner, atDigits⟩
          have firstEnds := first.stops_afterSuffix Char.isDigit isGap_not_digit (by decide)
          have secondEnds := second.stops_afterSuffix Char.isDigit isGap_not_digit (by decide)
          rcases append_inj_of_stops Char.isDigit _ _ _ _ numeral.all otherNumeral.all firstEnds
              secondEnds atDigits with ⟨sameDigits, after⟩
          subst sameInner sameDigits
          exact ⟨rfl, before, after⟩

theorem DefinitionText.suffix_inj (first second : DefinitionText)
    (same : first.afterName = second.afterName) :
    first.suffix = second.suffix ∧ skipGap first.afterSuffix = skipGap second.afterSuffix ∧
      (first.suffix ≠ .none → first.beforeSuffix = second.beforeSuffix ∧
        first.afterSuffix = second.afterSuffix) := by
  have sameHead := congrArg (fun s => (skipGap s).head?) same
  simp only [head?_skipGap_afterName] at sameHead
  by_cases firstAbsent : first.suffix = .none
  · have secondAbsent : second.suffix = .none := by
      rw [firstAbsent] at sameHead
      cases secondSuffix : second.suffix with
      | none => rfl
      | _ => cases default : first.default <;>
          simp [secondSuffix, default, SuffixText.chars, DefaultText.chars] at sameHead
    have sameTail := congrArg skipGap same
    simp only [afterName, firstAbsent, secondAbsent, SuffixText.chars, List.nil_append,
      skipGap_append _ _ first.gapSuffix, skipGap_append _ _ second.gapSuffix] at sameTail
    exact ⟨firstAbsent.trans secondAbsent.symm, sameTail, fun present => absurd firstAbsent present⟩
  · have secondPresent : second.suffix ≠ .none := by
      intro secondAbsent
      rw [secondAbsent] at sameHead
      cases firstSuffix : first.suffix with
      | none => exact firstAbsent firstSuffix
      | _ => cases default : second.default <;>
          simp [firstSuffix, default, SuffixText.chars, DefaultText.chars] at sameHead
    rcases first.suffix_inj_of_present second firstAbsent secondPresent same with
      ⟨suffix, before, after⟩
    exact ⟨suffix, congrArg skipGap after, fun _ => ⟨before, after⟩⟩

theorem DefinitionText.stops_default (text : DefinitionText) (present : text.default ≠ .none) :
    Stops isGap (text.default.chars ++ text.back) := by
  cases default : text.default with
  | none => exact absurd default present
  | given => exact stops_cons isGap '=' _ (by decide)

theorem DefinitionText.sameParts (first second : DefinitionText)
    (same : first.chars = second.chars) : first.SameParts second := by
  rcases append_inj_of_stops isGap _ _ _ _ first.gapFront second.gapFront first.stops_front
      second.stops_front same with ⟨front, atToken⟩
  rcases append_inj_of_stops isWordChar _ _ _ _ first.tokenWord.all second.tokenWord.all
      first.stops_token second.stops_token atToken with ⟨token, atBetween⟩
  rcases append_inj_of_stops isGap _ _ _ _ first.gapBetween second.gapBetween first.stops_between
      second.stops_between atBetween with ⟨between, atName⟩
  rcases append_inj_of_stops isWordChar _ _ _ _ first.nameWord.all second.nameWord.all
      first.stops_afterName second.stops_afterName atName with ⟨name, afterName⟩
  rcases first.suffix_inj second afterName with ⟨suffix, sameTail, samePlace⟩
  rcases first.default_inj second sameTail with ⟨default, back⟩
  refine ⟨front, token, between, name, suffix, default, fun present => (samePlace present).1, ?_,
    back⟩
  intro suffixPresent defaultPresent
  exact (append_inj_of_stops isGap _ _ _ _ first.gapDefault second.gapDefault
    (first.stops_default defaultPresent) (second.stops_default (default ▸ defaultPresent))
    (samePlace suffixPresent).2).1

/-- The fields that definitions stand for, and the texts that are definitions. -/
theorem Field.read_eq_ok_iff (text : String) (field : Field) :
    (Field.read text = .ok field ↔
      ∃ parts : DefinitionText, String.ofList parts.chars = text ∧
        String.ofList parts.name = field.name ∧
        ∃ number, (String.ofList parts.token, number) ∈ typeTokens ∧
          parts.suffix.suffix.Gives number field.shape) ∧
      ∀ first second : DefinitionText, String.ofList first.chars = text →
        String.ofList second.chars = text → first.SameParts second := by
  constructor
  · rw [Field.read_eq_ok_iff_definition]
    constructor
    · rintro ⟨definition, read, made⟩
      rcases (readDefinition?_eq_some_iff _ _).mp read with ⟨parts, rfl, chars⟩
      rcases (Definition.field_eq_ok_iff _ field).mp made with ⟨name, shape⟩
      refine ⟨parts, ?_, name, (Definition.shape_eq_ok_iff _ _).mp shape⟩
      rw [chars, String.ofList_toList]
    · rintro ⟨parts, rfl, name, gives⟩
      refine ⟨parts.definition, ?_, (Definition.field_eq_ok_iff _ field).mpr ⟨name, ?_⟩⟩
      · simpa [Definition.read?] using parts.readDefinition?_chars
      · exact (Definition.shape_eq_ok_iff _ _).mpr gives
  · intro first second firstText secondText
    apply first.sameParts second
    apply String.ofList_inj.mp
    rw [firstText, secondText]

end BinaryRecord
