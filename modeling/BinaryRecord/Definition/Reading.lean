import BinaryRecord.Definition.Grammar

/-! Reading a definition agrees with the form of one. Main statements:
`readDefinition?_eq_some_iff` and `Definition.read?_eq_none_iff`. -/

namespace BinaryRecord

theorem isWordChar_not_gap (c : Char) (word : isWordChar c = true) : isGap c = false := by
  rw [Bool.eq_false_iff]
  intro gap
  simp only [isGap, Bool.or_eq_true, decide_eq_true_eq] at gap
  rcases gap with rfl | rfl <;> simp [isWordChar] at word

theorem isWordChar_of_isDigit (c : Char) (digit : c.isDigit = true) : isWordChar c = true := by
  simp [isWordChar, Char.isAlphanum, digit]

theorem isDigit_not_gap (c : Char) (digit : c.isDigit = true) : isGap c = false :=
  isWordChar_not_gap c (isWordChar_of_isDigit c digit)

theorem isGap_not_wordChar (c : Char) (gap : isGap c = true) : isWordChar c = false := by
  rw [Bool.eq_false_iff]
  intro word
  rw [isWordChar_not_gap c word] at gap
  exact absurd gap (by simp)

theorem isGap_not_digit (c : Char) (gap : isGap c = true) : c.isDigit = false := by
  rw [Bool.eq_false_iff]
  intro digit
  rw [isDigit_not_gap c digit] at gap
  exact absurd gap (by simp)

theorem isBlank_of_isGap (c : Char) (gap : isGap c = true) : isBlank c = true := by
  simp only [isGap, Bool.or_eq_true, decide_eq_true_eq] at gap
  rcases gap with rfl | rfl <;> decide

theorem isWordChar_not_blank (c : Char) (word : isWordChar c = true) : isBlank c = false := by
  have between : ∀ first last : Char, 0x21 ≤ first.toNat → last.toNat ≤ 0x7E →
      first.toNat ≤ c.toNat → c.toNat ≤ last.toNat → isBlank c = false := by
    intro first last low high least most
    exact isBlank_of_printed c (Nat.le_trans low least) (Nat.le_trans most high)
  change (((c.isUpper || c.isLower) || c.isDigit) || decide (c = '_')) = true at word
  simp only [Bool.or_eq_true, decide_eq_true_eq] at word
  rcases word with ((upper | lower) | digit) | rfl
  · have bounds := of_decide_eq_true upper
    exact between 'A' 'Z' (by decide) (by decide) bounds.1 bounds.2
  · have bounds := Bool.and_eq_true_iff.mp lower
    exact between 'a' 'z' (by decide) (by decide) (of_decide_eq_true bounds.1)
      (of_decide_eq_true bounds.2)
  · have bounds := Bool.and_eq_true_iff.mp digit
    exact between '0' '9' (by decide) (by decide) (of_decide_eq_true bounds.1)
      (of_decide_eq_true bounds.2)
  · decide

theorem skipGap_append (gap rest : List Char) (blank : IsGap gap) :
    skipGap (gap ++ rest) = skipGap rest :=
  List.dropWhile_append_of_pos blank

theorem skipGap_of_stops (s : List Char) (stops : Stops isGap s) : skipGap s = s :=
  dropWhile_of_stops isGap s stops

theorem skipGap_eq_nil (gap : List Char) (blank : IsGap gap) : skipGap gap = [] := by
  simpa [skipGap] using skipGap_append gap [] blank

theorem skipGap_skipGap (s : List Char) : skipGap (skipGap s) = skipGap s :=
  skipGap_of_stops _ (stops_dropWhile isGap s)

theorem skipGap_gap_append (gap rest : List Char) (blank : IsGap gap) (stops : Stops isGap rest) :
    skipGap (gap ++ rest) = rest := by
  rw [skipGap_append gap rest blank, skipGap_of_stops rest stops]

theorem exists_gap (s : List Char) : ∃ gap, IsGap gap ∧ s = gap ++ skipGap s :=
  ⟨s.takeWhile isGap, List.all_eq_true.mp List.all_takeWhile,
    List.takeWhile_append_dropWhile.symm⟩

theorem stops_gap_append (kind : Char → Bool) (gap rest : List Char) (blank : IsGap gap)
    (outside : ∀ c, isGap c = true → kind c = false) (stops : Stops kind rest) :
    Stops kind (gap ++ rest) := by
  cases gap with
  | nil => exact stops
  | cons c gap => exact stops_cons kind c (gap ++ rest) (outside c (blank c (by simp)))

theorem stops_gap_of_isGap (gap : List Char) (blank : IsGap gap) :
    Stops (fun c => !isGap c) gap := by
  intro c first
  simp [blank c (List.mem_of_head? first)]

theorem stops_value (value rest : List Char) (solid : IsValue value) :
    Stops isGap (value ++ rest) := by
  apply stops_of_isRun _ isGap value rest solid
  intro c outside
  simpa using outside

theorem stops_digits (digits rest : List Char) (numeral : IsNumeral digits) :
    Stops isGap (digits ++ rest) :=
  stops_of_isRun _ isGap digits rest numeral isDigit_not_gap

theorem stops_bracket (gap rest : List Char) (blank : IsGap gap) :
    Stops Char.isDigit (gap ++ ']' :: rest) :=
  stops_gap_append _ gap _ blank isGap_not_digit (stops_cons _ ']' rest (by decide))

theorem DefinitionText.stops_front (text : DefinitionText) :
    Stops isGap (text.token ++ (text.between ++ (text.name ++ text.afterName))) :=
  stops_of_isRun _ isGap text.token _ text.tokenWord isWordChar_not_gap

theorem DefinitionText.stops_token (text : DefinitionText) :
    Stops isWordChar (text.between ++ (text.name ++ text.afterName)) :=
  stops_of_isRun _ isWordChar text.between _ ⟨text.apart, text.gapBetween⟩ isGap_not_wordChar

theorem DefinitionText.stops_between (text : DefinitionText) :
    Stops isGap (text.name ++ text.afterName) :=
  stops_of_isRun _ isGap text.name _ text.nameWord isWordChar_not_gap

theorem DefinitionText.stops_afterSuffix (text : DefinitionText) (kind : Char → Bool)
    (gapOutside : ∀ c, isGap c = true → kind c = false) (equalsOutside : kind '=' = false) :
    Stops kind text.afterSuffix := by
  apply stops_gap_append kind _ _ text.gapDefault gapOutside
  cases text.default with
  | none =>
      have back := stops_gap_append kind text.back [] text.gapBack gapOutside (stops_nil kind)
      simpa [DefaultText.chars] using back
  | given before value gapBefore solid => exact stops_cons kind '=' _ equalsOutside

theorem DefinitionText.stops_afterName (text : DefinitionText) :
    Stops isWordChar text.afterName := by
  apply stops_gap_append isWordChar _ _ text.gapSuffix isGap_not_wordChar
  cases text.suffix with
  | none => exact text.stops_afterSuffix isWordChar isGap_not_wordChar (by decide)
  | array before digits after gapBefore numeral gapAfter => exact stops_cons _ '[' _ (by decide)
  | flag before digits gapBefore numeral => exact stops_cons _ ':' _ (by decide)

theorem DefinitionText.skipGap_afterSuffix (text : DefinitionText) :
    skipGap text.afterSuffix =
      match text.default with
      | .none => []
      | .given before value _ _ => '=' :: (before ++ (value ++ text.back)) := by
  rw [afterSuffix, skipGap_append _ _ text.gapDefault]
  cases text.default with
  | none => exact skipGap_eq_nil text.back text.gapBack
  | given before value gapBefore solid =>
      simp only [DefaultText.chars, List.cons_append, List.append_assoc]
      exact skipGap_of_stops _ (stops_cons isGap '=' _ (by decide))

theorem DefinitionText.dropDefault_afterSuffix (text : DefinitionText) :
    skipGap (dropDefault (skipGap text.afterSuffix)) = [] := by
  rw [text.skipGap_afterSuffix]
  cases text.default with
  | none => rfl
  | given before value gapBefore solid =>
      have backStops := stops_gap_of_isGap text.back text.gapBack
      simp only [dropDefault]
      rw [skipGap_gap_append before _ gapBefore (stops_value value text.back solid),
        readRun?_append (fun c => !isGap c) value text.back solid backStops]
      exact skipGap_eq_nil text.back text.gapBack

theorem readArraySuffix?_array (before digits after rest : List Char) (gapBefore : IsGap before)
    (numeral : IsNumeral digits) (gapAfter : IsGap after) :
    readArraySuffix? ('[' :: (before ++ (digits ++ (after ++ ']' :: rest)))) =
      some (.array (numeralValue digits), rest) := by
  have digitsFirst := stops_digits digits (after ++ ']' :: rest) numeral
  have digitsEnd := stops_bracket after rest gapAfter
  have close : skipGap (after ++ ']' :: rest) = ']' :: rest :=
    skipGap_gap_append after _ gapAfter (stops_cons isGap ']' rest (by decide))
  simp only [readArraySuffix?]
  rw [skipGap_gap_append before _ gapBefore digitsFirst,
    readRun?_append Char.isDigit digits _ numeral digitsEnd]
  simp only [close]

theorem readFlagSuffix?_flag (before digits rest : List Char) (gapBefore : IsGap before)
    (numeral : IsNumeral digits) (stops : Stops Char.isDigit rest) :
    readFlagSuffix? (':' :: (before ++ (digits ++ rest))) =
      some (.flag (numeralValue digits), rest) := by
  have digitsFirst := stops_digits digits rest numeral
  simp only [readFlagSuffix?]
  rw [skipGap_gap_append before _ gapBefore digitsFirst,
    readRun?_append Char.isDigit digits rest numeral stops]
  rfl

def readSuffix? (s : List Char) : Option (Suffix × List Char) :=
  readArraySuffix? s <|> readFlagSuffix? s <|> readNoSuffix? s

theorem readForm?_orElse (first second : List Char → Option (Suffix × List Char)) (s : List Char) :
    (readForm? first s <|> readForm? second s) = readForm? (fun s => first s <|> second s) s := by
  cases tokenRead : readRun? isWordChar s with
  | none => simp [readForm?, tokenRead]
  | some token =>
      cases nameRead : readRun? isWordChar (skipGap token.2) with
      | none => simp [readForm?, tokenRead, nameRead]
      | some name =>
          cases suffixRead : first (skipGap name.2) <;>
            simp [readForm?, tokenRead, nameRead, suffixRead]

/-- The forms begin alike, so that trying them in order is trying their suffixes in order. -/
theorem readAnyForm?_eq (s : List Char) : readAnyForm? s = readForm? readSuffix? s := by
  rw [readAnyForm?, readForm?_orElse, readForm?_orElse]
  rfl

/-- No earlier kind of suffix takes a text that is written with a later one. -/
theorem DefinitionText.readSuffix?_afterName (text : DefinitionText) :
    ∃ rest, readSuffix? (skipGap text.afterName) = some (text.suffix.suffix, rest) ∧
      skipGap rest = skipGap text.afterSuffix := by
  rw [afterName, skipGap_append _ _ text.gapSuffix]
  cases text.suffix with
  | none =>
      refine ⟨skipGap text.afterSuffix, ?_, skipGap_skipGap _⟩
      simp only [SuffixText.chars, List.nil_append, text.skipGap_afterSuffix]
      cases text.default <;> rfl
  | array before digits after gapBefore numeral gapAfter =>
      refine ⟨text.afterSuffix, ?_, rfl⟩
      simp only [SuffixText.chars, List.cons_append, List.append_assoc, List.nil_append]
      rw [skipGap_of_stops _ (stops_cons isGap '[' _ (by decide)), readSuffix?,
        readArraySuffix?_array before digits after _ gapBefore numeral gapAfter]
      rfl
  | flag before digits gapBefore numeral =>
      refine ⟨text.afterSuffix, ?_, rfl⟩
      have ends := text.stops_afterSuffix Char.isDigit isGap_not_digit (by decide)
      simp only [SuffixText.chars, List.cons_append, List.append_assoc]
      rw [skipGap_of_stops _ (stops_cons isGap ':' _ (by decide)), readSuffix?,
        readFlagSuffix?_flag before digits _ gapBefore numeral ends]
      rfl

theorem DefinitionText.readDefinition?_chars (text : DefinitionText) :
    readDefinition? text.chars = some text.definition := by
  rcases text.readSuffix?_afterName with ⟨rest, suffixRead, atDefault⟩
  have tokenFirst : skipGap text.chars =
      text.token ++ (text.between ++ (text.name ++ text.afterName)) :=
    skipGap_gap_append _ _ text.gapFront text.stops_front
  have nameFirst : skipGap (text.between ++ (text.name ++ text.afterName)) =
      text.name ++ text.afterName :=
    skipGap_gap_append _ _ text.gapBetween text.stops_between
  have formRead : readForm? readSuffix? (skipGap text.chars) =
      some (text.definition, dropDefault (skipGap text.afterSuffix)) := by
    simp only [readForm?, Option.bind_eq_bind]
    rw [tokenFirst, readRun?_append isWordChar text.token _ text.tokenWord text.stops_token,
      Option.bind_some]
    dsimp only
    rw [nameFirst, readRun?_append isWordChar text.name _ text.nameWord text.stops_afterName,
      Option.bind_some]
    dsimp only
    rw [suffixRead, Option.bind_some]
    dsimp only
    rw [atDefault]
    rfl
  rw [readDefinition?, readAnyForm?_eq, formRead]
  simp [text.dropDefault_afterSuffix]

theorem readArraySuffix?_sound (s rest : List Char) (suffix : Suffix)
    (read : readArraySuffix? s = some (suffix, rest)) :
    ∃ text : SuffixText, text.suffix = suffix ∧ s = text.chars ++ rest := by
  unfold readArraySuffix? at read
  split at read
  · next tail =>
      split at read
      · simp at read
      · next digits afterDigits digitsRead =>
          split at read
          · next afterBracket bracket =>
              simp only [Option.some.injEq, Prod.mk.injEq] at read
              rcases read with ⟨rfl, rfl⟩
              rcases readRun?_eq_some _ _ _ _ digitsRead with ⟨cut, numeral⟩
              rcases exists_gap tail with ⟨before, gapBefore, startCut⟩
              rcases exists_gap afterDigits with ⟨after, gapAfter, endCut⟩
              refine ⟨.array before digits after gapBefore numeral gapAfter, rfl, ?_⟩
              rw [startCut, cut, endCut, bracket]
              simp [SuffixText.chars]
          · simp at read
  · simp at read

theorem readFlagSuffix?_sound (s rest : List Char) (suffix : Suffix)
    (read : readFlagSuffix? s = some (suffix, rest)) :
    ∃ text : SuffixText, text.suffix = suffix ∧ s = text.chars ++ rest := by
  unfold readFlagSuffix? at read
  split at read
  · next tail =>
      simp only [Option.map_eq_some_iff, Prod.mk.injEq, Prod.exists] at read
      rcases read with ⟨digits, afterDigits, digitsRead, rfl, rfl⟩
      rcases readRun?_eq_some _ _ _ _ digitsRead with ⟨cut, numeral⟩
      rcases exists_gap tail with ⟨before, gapBefore, startCut⟩
      refine ⟨.flag before digits gapBefore numeral, rfl, ?_⟩
      rw [startCut, cut]
      simp [SuffixText.chars]
  · simp at read

theorem readSuffix?_sound (s rest : List Char) (suffix : Suffix)
    (read : readSuffix? s = some (suffix, rest)) :
    ∃ text : SuffixText, text.suffix = suffix ∧ s = text.chars ++ rest := by
  simp only [readSuffix?, Option.orElse_eq_orElse, Option.orElse_eq_or,
    Option.or_eq_some_iff] at read
  rcases read with array | ⟨-, flag | ⟨-, none⟩⟩
  · exact readArraySuffix?_sound s rest suffix array
  · exact readFlagSuffix?_sound s rest suffix flag
  · simp only [readNoSuffix?, Option.some.injEq, Prod.mk.injEq] at none
    rcases none with ⟨rfl, rfl⟩
    exact ⟨.none, rfl, rfl⟩

theorem dropDefault_sound (s : List Char) :
    ∃ text : DefaultText, s = text.chars ++ dropDefault s := by
  unfold dropDefault
  split
  · next tail =>
      split
      · exact ⟨.none, rfl⟩
      · next value afterValue valueRead =>
          rcases readRun?_eq_some _ _ _ _ valueRead with ⟨cut, solid⟩
          rcases exists_gap tail with ⟨before, gapBefore, startCut⟩
          refine ⟨.given before value gapBefore solid, ?_⟩
          rw [startCut, cut]
          simp [DefaultText.chars]
  · exact ⟨.none, rfl⟩

theorem exists_definitionText (definition : Definition) (s : List Char)
    (read : readDefinition? s = some definition) :
    ∃ text : DefinitionText, text.definition = definition ∧ text.chars = s := by
  simp only [readDefinition?, readAnyForm?_eq, readForm?, Option.bind_eq_bind,
    Option.bind_eq_some_iff, Prod.exists, Option.pure_def, Option.some.injEq, Prod.mk.injEq] at read
  rcases read with
    ⟨_, _, ⟨token, afterToken, tokenRead, name, afterName, nameRead, suffix, afterSuffix,
     suffixRead, rfl, rfl⟩, finish⟩
  split at finish
  · next empty =>
      simp only [List.isEmpty_iff] at empty
      simp only [Option.some.injEq] at finish
      rcases (readRun?_eq_some_iff _ _ _ _).mp tokenRead with ⟨tokenCut, tokenWord, tokenStops⟩
      rcases readRun?_eq_some _ _ _ _ nameRead with ⟨nameCut, nameWord⟩
      rcases readSuffix?_sound _ _ _ suffixRead with ⟨suffixText, rfl, suffixCut⟩
      rcases dropDefault_sound (skipGap afterSuffix) with ⟨defaultText, defaultCut⟩
      rcases exists_gap s with ⟨front, gapFront, frontCut⟩
      rcases exists_gap afterToken with ⟨between, gapBetween, betweenCut⟩
      rcases exists_gap afterName with ⟨beforeSuffix, gapSuffix, beforeSuffixCut⟩
      rcases exists_gap afterSuffix with ⟨beforeDefault, gapDefault, beforeDefaultCut⟩
      rcases exists_gap (dropDefault (skipGap afterSuffix)) with ⟨back, gapBack, backCut⟩
      have apart : between ≠ [] := by
        rintro rfl
        rw [List.nil_append, nameCut] at betweenCut
        rw [betweenCut] at tokenStops
        exact not_stops_of_isRun isWordChar name afterName nameWord tokenStops
      refine ⟨⟨front, token, between, name, beforeSuffix, suffixText, beforeDefault, defaultText,
        back, gapFront, tokenWord, gapBetween, apart, nameWord, gapSuffix, gapDefault, gapBack⟩,
        finish, ?_⟩
      rw [frontCut, tokenCut, betweenCut, nameCut, beforeSuffixCut, suffixCut, beforeDefaultCut,
        defaultCut, backCut, empty, List.append_nil]
      rfl
  · simp at finish

theorem readDefinition?_eq_some_iff (definition : Definition) (s : List Char) :
    readDefinition? s = some definition ↔
      ∃ text : DefinitionText, text.definition = definition ∧ text.chars = s := by
  constructor
  · exact exists_definitionText definition s
  · rintro ⟨text, rfl, rfl⟩
    exact text.readDefinition?_chars

theorem Definition.read?_eq_some_iff (text : String) (definition : Definition) :
    Definition.read? text = some definition ↔
      ∃ parts : DefinitionText, parts.definition = definition ∧
        String.ofList parts.chars = text := by
  rw [Definition.read?, readDefinition?_eq_some_iff]
  simp only [← String.ofList_inj, String.ofList_toList]

theorem Definition.read?_eq_none_iff (text : String) :
    Definition.read? text = none ↔ ∀ parts : DefinitionText, String.ofList parts.chars ≠ text := by
  rw [Option.eq_none_iff_forall_ne_some]
  constructor
  · intro unread parts chars
    exact unread parts.definition ((Definition.read?_eq_some_iff _ _).mpr ⟨parts, rfl, chars⟩)
  · intro noForm definition read
    rcases (Definition.read?_eq_some_iff _ _).mp read with ⟨parts, -, chars⟩
    exact noForm parts chars

end BinaryRecord
