import BinaryRecord.Proofs.DefinitionForm

namespace BinaryRecord

/-- Why a number type and a suffix make no shape together. Each case leaves out what the cases
before it blame. -/
inductive Suffix.Refuses (token : String) (number : Numeric) : Suffix → Fault → Prop
  | unbacked {bits : Nat} (float : number = .float) :
      Refuses token number (.flag bits) (.cannotBack token)
  | longCount {count : Nat} (long : wordLimit ≤ count) :
      Refuses token number (.array count) .malformed
  | longWidth {bits width : Nat} (wide : number.bitWidth? = some width) (long : wordLimit ≤ bits) :
      Refuses token number (.flag bits) .malformed
  | noElements : Refuses token number (.array 0) (.countTooSmall 0)
  | outOfRange {bits width : Nat} (wide : number.bitWidth? = some width) (short : bits < wordLimit)
      (outside : bits = 0 ∨ width < bits) :
      Refuses token number (.flag bits) (.widthOutOfRange number bits width)

inductive Definition.Refused (definition : Definition) : Fault → Prop
  | unlisted (absent : ∀ number, (definition.token, number) ∉ typeTokens) :
      Refused definition (.unknownType definition.token)
  | listed {number : Numeric} {fault : Fault} (known : (definition.token, number) ∈ typeTokens)
      (refuses : definition.suffix.Refuses definition.token number fault) :
      Refused definition fault

theorem Numeric.ofToken?_eq_none_iff (token : String) :
    Numeric.ofToken? token = none ↔ ∀ number, (token, number) ∉ typeTokens := by
  rw [Option.eq_none_iff_forall_ne_some]
  simp only [ne_eq, Numeric.ofToken?_eq_some_iff]

theorem arrayShape_eq_error_iff (token : String) (element : Numeric) (count : Nat)
    (fault : Fault) :
    arrayShape element count = .error fault ↔ (Suffix.array count).Refuses token element fault := by
  constructor
  · intro refused
    unfold arrayShape at refused
    split at refused
    · next long =>
        cases refused
        exact .longCount long
    · split at refused
      · next none =>
          obtain rfl : count = 0 := by omega
          cases refused
          exact .noElements
      · exact absurd refused (by simp)
  · intro refuses
    cases refuses with
    | longCount long => rw [arrayShape, if_pos long]
    | noElements => rfl

theorem flagShape_eq_error_iff (token : String) (backing : Numeric) (bits : Nat) (fault : Fault) :
    flagShape token backing bits = .error fault ↔
      (Suffix.flag bits).Refuses token backing fault := by
  constructor
  · intro refused
    unfold flagShape at refused
    split at refused
    · next noBits =>
        cases refused
        exact .unbacked (backing.bitWidth?_eq_none_iff.mp noBits)
    · next width wide =>
        split at refused
        · next long =>
            cases refused
            exact .longWidth wide long
        · split at refused
          · next short outside =>
              cases refused
              exact .outOfRange wide (by omega) (by omega)
          · exact absurd refused (by simp)
  · intro refuses
    cases refuses with
    | unbacked float => simp [flagShape, backing.bitWidth?_eq_none_iff.mpr float]
    | longWidth wide long => simp only [flagShape, wide, if_pos long]
    | outOfRange wide short outside =>
        simp only [flagShape, wide]
        rw [if_neg (by omega), if_pos (by omega)]

theorem Suffix.not_refuses_none (token : String) (number : Numeric) (fault : Fault) :
    ¬ Suffix.none.Refuses token number fault := by
  rintro ⟨⟩

theorem Definition.shape_eq_error_of_listed (definition : Definition) (number : Numeric)
    (fault : Fault) (found : Numeric.ofToken? definition.token = some number) :
    definition.shape = .error fault ↔
      definition.suffix.Refuses definition.token number fault := by
  simp only [Definition.shape, found]
  cases definition.suffix with
  | none => simp [Suffix.not_refuses_none]
  | array count => exact arrayShape_eq_error_iff definition.token number count fault
  | flag bits => exact flagShape_eq_error_iff definition.token number bits fault

theorem Definition.shape_eq_error_iff (definition : Definition) (fault : Fault) :
    definition.shape = .error fault ↔ definition.Refused fault := by
  constructor
  · intro refused
    cases found : Numeric.ofToken? definition.token with
    | none =>
        simp only [Definition.shape, found, Except.error.injEq] at refused
        exact refused ▸ .unlisted ((Numeric.ofToken?_eq_none_iff _).mp found)
    | some number =>
        refine .listed ((Numeric.ofToken?_eq_some_iff _ number).mp found) ?_
        exact (definition.shape_eq_error_of_listed number fault found).mp refused
  · intro refused
    cases refused with
    | unlisted absent =>
        simp only [Definition.shape, (Numeric.ofToken?_eq_none_iff _).mpr absent]
    | @listed number _ known refuses =>
        have found := (Numeric.ofToken?_eq_some_iff _ number).mpr known
        exact (definition.shape_eq_error_of_listed number fault found).mpr refuses

theorem Definition.field_eq_error_iff (definition : Definition) (fault : Fault) :
    definition.field = .error fault ↔ definition.Refused fault := by
  rw [← Definition.shape_eq_error_iff, Definition.field]
  cases definition.shape with
  | error other => simp [Except.map]
  | ok shape => simp [Except.map]

/-- The fault of every text that defines no field, and no fault besides. -/
theorem Field.read_eq_error_iff (text : String) (fault : Fault) :
    Field.read text = .error fault ↔
      ((∀ parts : DefinitionText, String.ofList parts.chars ≠ text) ∧ fault = .malformed) ∨
      ∃ parts : DefinitionText, String.ofList parts.chars = text ∧
        parts.definition.Refused fault := by
  constructor
  · intro refused
    unfold Field.read at refused
    split at refused
    · next unread =>
        cases refused
        exact .inl ⟨(Definition.read?_eq_none_iff text).mp unread, rfl⟩
    · next definition read =>
        rcases (Definition.read?_eq_some_iff text definition).mp read with ⟨parts, rfl, chars⟩
        exact .inr ⟨parts, chars, (Definition.field_eq_error_iff _ fault).mp refused⟩
  · rintro (⟨noForm, rfl⟩ | ⟨parts, chars, refused⟩)
    · simp only [Field.read, (Definition.read?_eq_none_iff text).mpr noForm]
    · have read := (Definition.read?_eq_some_iff text _).mpr ⟨parts, rfl, chars⟩
      simp only [Field.read, read]
      exact (Definition.field_eq_error_iff _ fault).mpr refused

example : Field.read "f32 rate:18446744073709551616" = .error (.cannotBack "f32") := by
  rfl

example : Field.read "u8 on:018446744073709551615" =
    .error (.widthOutOfRange .u8 18446744073709551615 8) := by
  rfl

end BinaryRecord
