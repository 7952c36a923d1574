import BinaryRecord.Definition.Reading
import BinaryRecord.Proofs.DefinitionLines
import BinaryRecord.Record.Build

namespace BinaryRecord

/-- A default value of which something is left when white space is taken off its end. -/
def DefaultText.IsVisible : DefaultText → Prop
  | .none => True
  | .given _ value _ _ => ∃ c ∈ value, isBlank c = false

structure IsDefinitionLine (line : String) : Prop where
  noBreak : '\n' ∉ line.toList
  form : ∃ parts : DefinitionText, String.ofList parts.chars = line ∧ parts.default.IsVisible

def trimmedLine (line : String) : String := String.ofList (trim line.toList)

structure DefinitionText.TrimsTo (text kept : DefinitionText) : Prop where
  front : kept.front = []
  definition : kept.definition = text.definition
  ends : EndsSolid kept.chars
  whole : ∃ back, text.chars = text.front ++ (kept.chars ++ back) ∧ ∀ c ∈ back, isBlank c = true

theorem isBlank_of_gaps (gap : List Char) (isGap : IsGap gap) : ∀ c ∈ gap, isBlank c = true :=
  fun c member => isBlank_of_isGap c (isGap c member)

theorem SuffixText.endsSolid (suffix : SuffixText) (present : suffix ≠ .none) :
    EndsSolid suffix.chars := by
  cases suffix with
  | none => exact absurd rfl present
  | array before digits after gapBefore numeral gapAfter =>
      have close : EndsSolid [']'] := by
        constructor <;> decide
      have cut : (SuffixText.array before digits after gapBefore numeral gapAfter).chars =
          ('[' :: (before ++ digits ++ after)) ++ [']'] := by simp [chars]
      rw [cut]
      exact close.append _
  | flag before digits gapBefore numeral =>
      have solid := endsSolid_of_isRun Char.isDigit digits numeral fun c digit =>
        isWordChar_not_blank c (isWordChar_of_isDigit c digit)
      exact solid.append (':' :: before)

section Parts

variable (text : DefinitionText)

theorem DefinitionText.trimsTo_of_default (before value : List Char) (gapBefore : IsGap before)
    (solid : IsValue value) (given : text.default = .given before value gapBefore solid)
    (visible : ∃ c ∈ value, isBlank c = false) : ∃ kept, text.TrimsTo kept := by
  obtain ⟨core, blanks, rfl, coreSolid, blank⟩ := exists_solid value visible
  have coreValue : IsValue core :=
    ⟨coreSolid.1, fun c member => solid.all c (List.mem_append_left blanks member)⟩
  refine ⟨{ text with
    front := [], gapFront := isGap_nil
    default := .given before core gapBefore coreValue
    back := [], gapBack := isGap_nil }, rfl, rfl, ?ends, blanks ++ text.back, ?cut, ?blank⟩
  case ends =>
    have solidEnd := coreSolid.append (text.token ++ text.between ++ text.name ++
      text.beforeSuffix ++ text.suffix.chars ++ text.beforeDefault ++ '=' :: before)
    simpa [chars, afterName, afterSuffix, DefaultText.chars] using solidEnd
  case cut => simp [chars, afterName, afterSuffix, given, DefaultText.chars]
  case blank => exact List.forall_mem_append.mpr ⟨blank, isBlank_of_gaps _ text.gapBack⟩

theorem DefinitionText.trimsTo_of_suffix (present : text.suffix ≠ .none)
    (noDefault : text.default = .none) : ∃ kept, text.TrimsTo kept := by
  refine ⟨{ text with
    front := [], gapFront := isGap_nil
    beforeDefault := [], gapDefault := isGap_nil
    back := [], gapBack := isGap_nil }, rfl, rfl, ?ends, text.beforeDefault ++ text.back, ?cut,
    ?blank⟩
  case ends =>
    have solidEnd := (text.suffix.endsSolid present).append (text.token ++ text.between ++
      text.name ++ text.beforeSuffix)
    simpa [chars, afterName, afterSuffix, noDefault, DefaultText.chars] using solidEnd
  case cut => simp [chars, afterName, afterSuffix, noDefault, DefaultText.chars]
  case blank =>
    exact List.forall_mem_append.mpr
      ⟨isBlank_of_gaps _ text.gapDefault, isBlank_of_gaps _ text.gapBack⟩

theorem DefinitionText.trimsTo_of_name (noSuffix : text.suffix = .none)
    (noDefault : text.default = .none) : ∃ kept, text.TrimsTo kept := by
  refine ⟨{ text with
    front := [], gapFront := isGap_nil
    beforeSuffix := [], gapSuffix := isGap_nil
    beforeDefault := [], gapDefault := isGap_nil
    back := [], gapBack := isGap_nil }, rfl, rfl, ?ends,
    text.beforeSuffix ++ (text.beforeDefault ++ text.back), ?cut, ?blank⟩
  case ends =>
    have solidName := endsSolid_of_isRun isWordChar text.name text.nameWord isWordChar_not_blank
    have solidEnd := solidName.append (text.token ++ text.between)
    simpa [chars, afterName, afterSuffix, noSuffix, noDefault, SuffixText.chars,
      DefaultText.chars] using solidEnd
  case cut =>
    simp [chars, afterName, afterSuffix, noSuffix, noDefault, SuffixText.chars, DefaultText.chars]
  case blank =>
    rw [List.forall_mem_append, List.forall_mem_append]
    exact ⟨isBlank_of_gaps _ text.gapSuffix, isBlank_of_gaps _ text.gapDefault,
      isBlank_of_gaps _ text.gapBack⟩

theorem DefinitionText.exists_trimsTo (visible : text.default.IsVisible) :
    ∃ kept, text.TrimsTo kept := by
  cases default : text.default with
  | given before value gapBefore solid =>
      rw [default] at visible
      exact text.trimsTo_of_default before value gapBefore solid default visible
  | none =>
      by_cases noSuffix : text.suffix = .none
      · exact text.trimsTo_of_name noSuffix default
      · exact text.trimsTo_of_suffix noSuffix default

end Parts

section Kept

variable {text kept : DefinitionText} (trims : text.TrimsTo kept)

include trims

theorem DefinitionText.TrimsTo.exists_token : ∃ c rest, kept.chars = c :: rest ∧
    isWordChar c = true := by
  obtain ⟨c, token, cut⟩ := List.exists_cons_of_ne_nil kept.tokenWord.nonempty
  refine ⟨c, token ++ (kept.between ++ (kept.name ++ kept.afterName)), ?_,
    kept.tokenWord.all c (by simp [cut])⟩
  rw [chars, trims.front, cut]
  rfl

theorem DefinitionText.TrimsTo.trim_chars : trim text.chars = kept.chars := by
  obtain ⟨back, whole, blank⟩ := trims.whole
  obtain ⟨c, rest, chars, word⟩ := trims.exists_token
  have start : Stops isBlank kept.chars := by
    rw [chars]
    exact stops_cons isBlank c rest (isWordChar_not_blank c word)
  rw [whole]
  exact trim_surrounded _ _ _ ⟨start, trims.ends.2⟩ (isBlank_of_gaps _ text.gapFront) blank

theorem DefinitionText.TrimsTo.not_comment : isComment kept.chars = false := by
  obtain ⟨c, rest, chars, word⟩ := trims.exists_token
  rw [chars, ← Bool.not_eq_true, isComment_iff]
  intro comment
  rcases comment with hash | slashes
  · have first : '#' = c := (List.cons_prefix_cons.mp hash).1
    rw [← first] at word
    cases word
  · have first : '/' = c := (List.cons_prefix_cons.mp slashes).1
    rw [← first] at word
    cases word

end Kept

theorem Field.read_congr (text other : String)
    (same : Definition.read? text = Definition.read? other) :
    Field.read text = Field.read other := by
  rw [Field.read, Field.read, same]

theorem IsDefinitionLine.contents {line : String} (isLine : IsDefinitionLine line) :
    lineContents [line.toList] = [trimmedLine line] ∧
      Field.read (trimmedLine line) = Field.read line := by
  obtain ⟨parts, rfl, visible⟩ := isLine.form
  obtain ⟨kept, trims⟩ := parts.exists_trimsTo visible
  have text : trimmedLine (String.ofList parts.chars) = String.ofList kept.chars := by
    rw [trimmedLine, String.toList_ofList, trims.trim_chars]
  constructor
  · have nonempty := trims.ends.1
    simp [lineContents, text, trims.trim_chars, trims.not_comment, nonempty]
  · apply Field.read_congr
    have read := (Definition.read?_eq_some_iff _ _).mpr ⟨kept, trims.definition, rfl⟩
    rw [text, read]
    exact ((Definition.read?_eq_some_iff _ _).mpr ⟨parts, rfl, rfl⟩).symm

theorem lineContents_of_definitions (definitions : List String)
    (areLines : ∀ definition ∈ definitions, IsDefinitionLine definition) :
    lineContents (definitions.map String.toList) = definitions.map trimmedLine := by
  induction definitions with
  | nil => rfl
  | cons definition definitions ih =>
      rw [List.forall_mem_cons] at areLines
      rw [List.map_cons, lineContents_cons, areLines.1.contents.1, ih areLines.2]
      rfl

theorem readFieldsFrom_map (index : Nat) (definitions : List String) (change : String → String)
    (same : ∀ definition ∈ definitions, Field.read (change definition) = Field.read definition) :
    readFieldsFrom index (definitions.map change) = readFieldsFrom index definitions := by
  induction definitions generalizing index with
  | nil => rfl
  | cons definition definitions ih =>
      rw [List.forall_mem_cons] at same
      rw [List.map_cons, readFieldsFrom, readFieldsFrom, same.1, ih (index + 1) same.2]

def Rejection.trimmed (rejection : Rejection) : Rejection :=
  { rejection with definition := trimmedLine rejection.definition }

theorem build_map_trimmed (name : String) (definitions : List String)
    (same : ∀ definition ∈ definitions,
      Field.read (trimmedLine definition) = Field.read definition) :
    RecordSource.build ⟨name, definitions.map trimmedLine⟩ =
      (RecordSource.build ⟨name, definitions⟩).mapError Rejection.trimmed := by
  have members : buildMembers (definitions.map trimmedLine) = buildMembers definitions := by
    rw [buildMembers, buildMembers, readFields, readFields,
      readFieldsFrom_map 0 definitions trimmedLine same]
  rw [RecordSource.build, RecordSource.build, members]
  cases buildMembers definitions with
  | ok members => rfl
  | error placed =>
      have quoted : (definitions.map trimmedLine).getD placed.index "" =
          trimmedLine (definitions.getD placed.index "") := by
        rw [List.getD_eq_getElem?_getD, List.getD_eq_getElem?_getD, List.getElem?_map]
        cases definitions[placed.index]? with
        | none => decide
        | some definition => rfl
      simp only [Except.mapError, PlacedFault.reject, Rejection.trimmed, quoted]

/-- Loading keeps each definition, but for the white space around it, and the field that it is read
as. What is built is the same then, and a rejection blames the same definition for the same
fault. -/
theorem build_loaded (name : String) (ending : LineEnd) (final : Option LineEnd)
    (definitions : List String)
    (areLines : ∀ definition ∈ definitions, IsDefinitionLine definition) :
    definitionLines (joinLines ending final definitions) = definitions.map trimmedLine ∧
      (∀ definition ∈ definitions, Field.read (trimmedLine definition) = Field.read definition) ∧
      RecordSource.build ⟨name, definitionLines (joinLines ending final definitions)⟩ =
        (RecordSource.build ⟨name, definitions⟩).mapError Rejection.trimmed := by
  have noBreak : ∀ definition ∈ definitions, '\n' ∉ definition.toList :=
    fun definition member => (areLines definition member).noBreak
  have loaded :
      definitionLines (joinLines ending final definitions) = definitions.map trimmedLine := by
    rw [definitionLines_joinLines_of_noBreak ending final definitions noBreak,
      lineContents_of_definitions definitions areLines]
  have same : ∀ definition ∈ definitions,
      Field.read (trimmedLine definition) = Field.read definition :=
    fun definition member => (areLines definition member).contents.2
  rw [loaded]
  exact ⟨rfl, same, build_map_trimmed name definitions same⟩

/-- White space of several kinds stands around the first definition and inside of its default
value. -/
def surroundedDefinitions : List String := ["\tu8 on:1=\u00A0//\u2003 ", "u8 off"]

theorem surroundedDefinitions_areLines :
    ∀ definition ∈ surroundedDefinitions, IsDefinitionLine definition := by
  have token : IsWord "u8".toList := isWord_of_mem_typeTokens ("u8", .u8) (by decide)
  have on : IsWord "on".toList := by decide
  have off : IsWord "off".toList := by decide
  have value : IsValue "\u00A0//\u2003".toList := by decide
  rw [surroundedDefinitions, List.forall_mem_cons, List.forall_mem_singleton]
  constructor
  · refine ⟨by decide, { Field.writtenParts "u8" ⟨"on", .flag .u8 1⟩ token on with
      front := ['\t'], gapFront := List.forall_mem_singleton.mpr rfl
      default := .given [] _ isGap_nil value
      back := [' '], gapBack := List.forall_mem_singleton.mpr rfl }, rfl, ?_⟩
    exact ⟨'/', by decide, by decide⟩
  · exact ⟨by decide, Field.writtenParts "u8" ⟨"off", .scalar .u8⟩ token off, rfl, trivial⟩

theorem build_loaded_sample :
    (∀ definition ∈ surroundedDefinitions, IsDefinitionLine definition) ∧
      RecordSource.build ⟨"Loaded", surroundedDefinitions⟩ =
        .error ⟨"Loaded", 0, "\tu8 on:1=\u00A0//\u2003 ", .unfinishedRun 1 8⟩ ∧
      RecordSource.build
          ⟨"Loaded", definitionLines (joinLines .feed none surroundedDefinitions)⟩ =
        .error ⟨"Loaded", 0, "u8 on:1=\u00A0//", .unfinishedRun 1 8⟩ := by
  have alone : RecordSource.build ⟨"Loaded", surroundedDefinitions⟩ =
      .error ⟨"Loaded", 0, "\tu8 on:1=\u00A0//\u2003 ", .unfinishedRun 1 8⟩ := by
    decide +kernel
  have loaded := build_loaded "Loaded" .feed none _ surroundedDefinitions_areLines
  refine ⟨surroundedDefinitions_areLines, alone, ?_⟩
  rw [loaded.2.2, alone]
  decide

/-- Where white space is all that a default value holds, its equals sign is left alone. -/
example : Field.read "u8 on =\u3000" = .ok ⟨"on", .scalar .u8⟩ ∧
    Field.read (trimmedLine "u8 on =\u3000") = .error .malformed := by
  decide +kernel

end BinaryRecord
