import BinaryRecord.Definition

/-! The form of a definition, said without reading one: the parts that it is written with. -/

namespace BinaryRecord

def IsGap (s : List Char) : Prop := ∀ c ∈ s, isGap c = true

abbrev IsWord (s : List Char) : Prop := IsRun isWordChar s

abbrev IsNumeral (s : List Char) : Prop := IsRun Char.isDigit s

abbrev IsValue (s : List Char) : Prop := IsRun (fun c => !isGap c) s

inductive SuffixText
  | none
  | array (before digits after : List Char) (gapBefore : IsGap before) (numeral : IsNumeral digits)
      (gapAfter : IsGap after)
  | flag (before digits : List Char) (gapBefore : IsGap before) (numeral : IsNumeral digits)

def SuffixText.chars : SuffixText → List Char
  | .none => []
  | .array before digits after _ _ _ => '[' :: (before ++ (digits ++ (after ++ [']'])))
  | .flag before digits _ _ => ':' :: (before ++ digits)

def SuffixText.suffix : SuffixText → Suffix
  | .none => .none
  | .array _ digits _ _ _ _ => .array (numeralValue digits)
  | .flag _ digits _ _ => .flag (numeralValue digits)

inductive DefaultText
  | none
  | given (before value : List Char) (gapBefore : IsGap before) (solid : IsValue value)

def DefaultText.chars : DefaultText → List Char
  | .none => []
  | .given before value _ _ => '=' :: (before ++ value)

/-- Only the gap between the token and the name has to be there. -/
structure DefinitionText where
  front : List Char
  token : List Char
  between : List Char
  name : List Char
  beforeSuffix : List Char
  suffix : SuffixText
  beforeDefault : List Char
  default : DefaultText
  back : List Char
  gapFront : IsGap front
  tokenWord : IsWord token
  gapBetween : IsGap between
  apart : between ≠ []
  nameWord : IsWord name
  gapSuffix : IsGap beforeSuffix
  gapDefault : IsGap beforeDefault
  gapBack : IsGap back

def DefinitionText.afterSuffix (text : DefinitionText) : List Char :=
  text.beforeDefault ++ (text.default.chars ++ text.back)

def DefinitionText.afterName (text : DefinitionText) : List Char :=
  text.beforeSuffix ++ (text.suffix.chars ++ text.afterSuffix)

def DefinitionText.chars (text : DefinitionText) : List Char :=
  text.front ++ (text.token ++ (text.between ++ (text.name ++ text.afterName)))

def DefinitionText.definition (text : DefinitionText) : Definition :=
  ⟨String.ofList text.token, String.ofList text.name, text.suffix.suffix⟩

def Shape.number : Shape → Numeric
  | .scalar number => number
  | .array element _ => element
  | .flag backing _ => backing

def Shape.suffixText : Shape → String
  | .scalar _ => ""
  | .array _ count => "[" ++ decimal count ++ "]"
  | .flag _ bits => ":" ++ decimal bits

def Field.written (token : String) (field : Field) : String :=
  token ++ " " ++ field.name ++ field.shape.suffixText

/-- Several tokens may mean the number type of a field, and it can be written with each of them. -/
def Field.IsWritten (field : Field) (definition : String) : Prop :=
  ∃ entry ∈ typeTokens, entry.2 = field.shape.number ∧ definition = field.written entry.1

instance (field : Field) (definition : String) : Decidable (field.IsWritten definition) :=
  inferInstanceAs (Decidable (∃ entry ∈ typeTokens,
    entry.2 = field.shape.number ∧ definition = field.written entry.1))

theorem isGap_nil : IsGap [] := by
  intro c member
  cases member

theorem isWord_of_mem_typeTokens (entry : String × Numeric) (member : entry ∈ typeTokens) :
    IsWord entry.1.toList := by
  have words : typeTokens.all (fun entry =>
      !entry.1.toList.isEmpty && entry.1.toList.all isWordChar) = true := by decide
  have word := List.all_eq_true.mp words entry member
  simp only [Bool.and_eq_true, Bool.not_eq_true', List.isEmpty_eq_false_iff,
    List.all_eq_true] at word
  exact ⟨word.1, word.2⟩

def Shape.suffixParts : Shape → SuffixText
  | .scalar _ => .none
  | .array _ count =>
      .array [] (decimal count).toList [] isGap_nil (isRun_decimal count) isGap_nil
  | .flag _ bits => .flag [] (decimal bits).toList isGap_nil (isRun_decimal bits)

theorem Shape.chars_suffixParts (shape : Shape) :
    shape.suffixParts.chars = shape.suffixText.toList := by
  cases shape <;> simp [suffixParts, suffixText, SuffixText.chars]

def Field.writtenParts (token : String) (field : Field) (tokenWord : IsWord token.toList)
    (nameWord : IsWord field.name.toList) : DefinitionText where
  front := []
  token := token.toList
  between := [' ']
  name := field.name.toList
  beforeSuffix := []
  suffix := field.shape.suffixParts
  beforeDefault := []
  default := .none
  back := []
  gapFront := isGap_nil
  tokenWord
  gapBetween := by intro c member; rw [List.mem_singleton.mp member]; rfl
  apart := by simp
  nameWord
  gapSuffix := isGap_nil
  gapDefault := isGap_nil
  gapBack := isGap_nil

theorem Field.chars_writtenParts (token : String) (field : Field)
    (tokenWord : IsWord token.toList) (nameWord : IsWord field.name.toList) :
    (field.writtenParts token tokenWord nameWord).chars = (field.written token).toList := by
  simp [writtenParts, DefinitionText.chars, DefinitionText.afterName, DefinitionText.afterSuffix,
    DefaultText.chars, Shape.chars_suffixParts, written]

end BinaryRecord
