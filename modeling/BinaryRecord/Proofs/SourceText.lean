import BinaryRecord.Host.Literal
import BinaryRecord.Proofs.StructLines

namespace BinaryRecord

/-- What a struct shows of a member: identifiers in place of names, and no widths of flags. -/
inductive StructItem
  | field (identifier : String) (shape : Shape)
  | word (flags : List String) (identifier : String) (backing : Numeric)
  deriving DecidableEq, Repr

def Member.item : Member → StructItem
  | .plain field => .field (fieldIdentifier field.name) field.shape
  | .packed word =>
      .word (word.flags.map fun flag => identifier flag.name) (fieldIdentifier word.name)
        word.backing

def Member.Legible : Member → Prop
  | .plain field => IsWord field.name.toList ∧ field.backing? = none
  | .packed word => IsWord word.name.toList ∧ word.flags ≠ []

structure IsIndented (line : String) : Prop where
  noBreak : '\n' ∉ line.toList
  blank : line.toList[0]? = some ' '

theorem map_eq_map_iff_forall₂ {α β : Type} (f : α → β) (items others : List α) :
    items.map f = others.map f ↔
      List.Forall₂ (fun item other => f item = f other) items others := by
  rw [← List.forall₂_eq_eq_eq, List.forall₂_map_left_iff, List.forall₂_map_right_iff]

section Cutting

theorem toList_unlines_cons (line : String) (texts : List String) :
    (unlines (line :: texts)).toList = line.toList ++ '\n' :: (unlines texts).toList := by
  simp [toList_unlines]

theorem toList_unlines_append (texts more : List String) :
    (unlines (texts ++ more)).toList = (unlines texts).toList ++ (unlines more).toList := by
  simp [toList_unlines]

theorem line_inj (line other rest tail : List Char) (noBreak : '\n' ∉ line)
    (otherNoBreak : '\n' ∉ other) (same : line ++ '\n' :: rest = other ++ '\n' :: tail) :
    line = other ∧ rest = tail := by
  have kept : ∀ text : List Char, '\n' ∉ text → ∀ c ∈ text, decide (c ≠ '\n') = true := by
    intro text clean c member
    exact decide_eq_true fun isBreak => clean (isBreak ▸ member)
  have cut := append_inj_of_stops (fun c => c ≠ '\n') _ _ _ _ (kept line noBreak)
    (kept other otherNoBreak) (stops_cons _ '\n' rest (by decide))
    (stops_cons _ '\n' tail (by decide)) same
  exact ⟨cut.1, (List.cons.inj cut.2).2⟩

theorem unlines_inj_of_indented (texts others : List String) (stop : String)
    (rest tail : List Char) (indented : ∀ line ∈ texts, IsIndented line)
    (othersIndented : ∀ line ∈ others, IsIndented line) (stopClean : '\n' ∉ stop.toList)
    (stopOut : stop.toList[0]? ≠ some ' ')
    (same : (unlines texts).toList ++ (stop.toList ++ '\n' :: rest) =
      (unlines others).toList ++ (stop.toList ++ '\n' :: tail)) :
    texts = others ∧ rest = tail := by
  induction texts generalizing others with
  | nil =>
      cases others with
      | nil =>
          have cut := line_inj _ _ _ _ stopClean stopClean (by simpa using same)
          exact ⟨rfl, cut.2⟩
      | cons other others =>
          have isIndented := othersIndented other (by simp)
          rw [toList_unlines_cons, List.append_assoc] at same
          have cut := line_inj _ _ _ _ stopClean isIndented.noBreak same
          exact absurd (cut.1 ▸ isIndented.blank) stopOut
  | cons line texts ih =>
      have isIndented := indented line (by simp)
      rw [toList_unlines_cons, List.append_assoc] at same
      cases others with
      | nil =>
          have cut := line_inj _ _ _ _ isIndented.noBreak stopClean same
          exact absurd (cut.1 ▸ isIndented.blank) stopOut
      | cons other others =>
          have otherIndented := othersIndented other (by simp)
          rw [toList_unlines_cons, List.append_assoc] at same
          have cut := line_inj _ _ _ _ isIndented.noBreak otherIndented.noBreak same
          have later := ih others (fun l member => indented l (List.mem_cons_of_mem _ member))
            (fun l member => othersIndented l (List.mem_cons_of_mem _ member)) cut.2
          rw [String.toList_inj.mp cut.1, later.1]
          exact ⟨rfl, later.2⟩

theorem unlines_cut (front texts others rest tail : List String) (stop : String)
    (indented : ∀ line ∈ texts, IsIndented line) (othersIndented : ∀ line ∈ others, IsIndented line)
    (stopClean : '\n' ∉ stop.toList) (stopOut : stop.toList[0]? ≠ some ' ')
    (same : unlines (front ++ (texts ++ stop :: rest)) =
      unlines (front ++ (others ++ stop :: tail))) :
    texts = others ∧ unlines rest = unlines tail := by
  have chars := congrArg String.toList same
  simp only [toList_unlines_append, toList_unlines_cons, List.append_cancel_left_eq] at chars
  have cut := unlines_inj_of_indented texts others stop _ _ indented othersIndented stopClean
    stopOut chars
  exact ⟨cut.1, String.toList_inj.mp cut.2⟩

end Cutting

theorem Numeric.structType_injective (number other : Numeric)
    (same : number.structType = other.structType) : number = other := by
  revert same
  cases number <;> cases other <;> decide

theorem isWord_structType (number : Numeric) : IsWord number.structType.toList := by
  have word : number.structType.toList.isEmpty = false ∧
      number.structType.toList.all isWordChar = true := by
    cases number <;> decide
  exact ⟨List.isEmpty_eq_false_iff.mp word.1, List.all_eq_true.mp word.2⟩

theorem stops_isWordChar (mark text : String) (rest : List Char)
    (isMark : mark.toList.head?.any (fun c => !isWordChar c) = true) :
    Stops isWordChar (mark.toList ++ (text.toList ++ rest)) := by
  intro c first
  cases chars : mark.toList with
  | nil =>
      rw [chars] at isMark
      cases isMark
  | cons d marks =>
      rw [chars] at isMark first
      obtain rfl : d = c := by simpa using first
      simpa using isMark

theorem fieldLine_inj (name other type otherType : String) (word : IsWord name.toList)
    (otherWord : IsWord other.toList) (same : fieldLine name type = fieldLine other otherType) :
    fieldIdentifier name = fieldIdentifier other ∧ type = otherType := by
  have chars := congrArg String.toList same
  simp only [fieldLine, String.toList_append, List.append_assoc,
    List.append_cancel_left_eq] at chars
  have cut := append_inj_of_stops isWordChar _ _ _ _ (isWord_fieldIdentifier name word).all
    (isWord_fieldIdentifier other otherWord).all (stops_isWordChar ": " type _ (by decide))
    (stops_isWordChar ": " otherType _ (by decide)) chars
  refine ⟨String.toList_inj.mp cut.1, ?_⟩
  have types := cut.2
  rw [List.append_cancel_left_eq, List.append_cancel_right_eq] at types
  exact String.toList_inj.mp types

theorem flagLine_eq_iff (name other : String) (bit : Nat) :
    flagLine name bit = flagLine other bit ↔ identifier name = identifier other := by
  apply (String.append_left_inj ")]").trans
  apply (String.append_left_inj (decimal bit)).trans
  apply (String.append_left_inj ", ").trans
  exact String.append_right_inj "    #[bitflag("

theorem getElem?_append (front back : String) (place : Nat) (c : Char)
    (stands : front.toList[place]? = some c) : (front ++ back).toList[place]? = some c := by
  rcases List.getElem?_eq_some_iff.mp stands with ⟨bound, -⟩
  rw [String.toList_append, List.getElem?_append_left bound, stands]

theorem getElem?_flagLine (name : String) (bit place : Nat) (c : Char)
    (stands : "    #[bitflag(".toList[place]? = some c) :
    (flagLine name bit).toList[place]? = some c := by
  apply getElem?_append
  apply getElem?_append
  apply getElem?_append
  apply getElem?_append
  exact stands

theorem getElem?_fieldLine (name type : String) (place : Nat) (c : Char)
    (stands : "    pub ".toList[place]? = some c) :
    (fieldLine name type).toList[place]? = some c := by
  apply getElem?_append
  apply getElem?_append
  apply getElem?_append
  apply getElem?_append
  exact stands

theorem flagLine_ne_fieldLine (name other type : String) (bit : Nat) :
    flagLine name bit ≠ fieldLine other type := by
  intro same
  have mark := getElem?_flagLine name bit 4 '#' (by decide)
  rw [same, getElem?_fieldLine other type 4 'p' (by decide)] at mark
  cases mark

theorem Shape.structType_inj (shape other : Shape) (noFlag : shape.backing? = none)
    (otherNoFlag : other.backing? = none) (same : shape.structType = other.structType) :
    shape = other := by
  have notArray : ∀ (number element : Numeric) (count : Nat),
      (Shape.scalar number).structType ≠ (Shape.array element count).structType := by
    intro number element count sameType
    have first := congrArg (fun text => text.toList.head?) sameType
    cases number <;> simp [Shape.structType, Numeric.structType, Numeric.tag] at first
  cases shape with
  | scalar number =>
      cases other with
      | scalar otherNumber => rw [Numeric.structType_injective number otherNumber same]
      | array element count => exact absurd same (notArray number element count)
      | flag backing bits => cases otherNoFlag
  | array element count =>
      cases other with
      | scalar number => exact absurd same.symm (notArray number element count)
      | array otherElement otherCount =>
          have chars := congrArg String.toList same
          simp only [Shape.structType, String.toList_append, List.append_assoc,
            List.append_cancel_left_eq] at chars
          have cut := append_inj_of_stops isWordChar _ _ _ _ (isWord_structType element).all
            (isWord_structType otherElement).all
            (stops_isWordChar "; " (decimal count) _ (by decide))
            (stops_isWordChar "; " (decimal otherCount) _ (by decide)) chars
          have elements := Numeric.structType_injective _ _ (String.toList_inj.mp cut.1)
          have counts := cut.2
          rw [List.append_cancel_left_eq, List.append_cancel_right_eq] at counts
          rw [elements, decimal_injective _ _ (String.toList_inj.mp counts)]
      | flag backing bits => cases otherNoFlag
  | flag backing bits => cases noFlag

theorem flagLines_inj (flags others : List Field) (bit : Nat) (name other type otherType : String)
    (rest tail : List String)
    (same : (flags.zipIdx bit).map (fun (flag, bit) => flagLine flag.name bit) ++
        fieldLine name type :: rest =
      (others.zipIdx bit).map (fun (flag, bit) => flagLine flag.name bit) ++
        fieldLine other otherType :: tail) :
    flags.map (fun flag => identifier flag.name) = others.map (fun flag => identifier flag.name) ∧
      fieldLine name type = fieldLine other otherType ∧ rest = tail := by
  induction flags generalizing others bit with
  | nil =>
      cases others with
      | nil => exact ⟨rfl, List.cons.inj same⟩
      | cons otherFlag others =>
          exact absurd (List.cons.inj same).1.symm (flagLine_ne_fieldLine _ _ _ _)
  | cons flag flags ih =>
      cases others with
      | nil => exact absurd (List.cons.inj same).1 (flagLine_ne_fieldLine _ _ _ _)
      | cons otherFlag others =>
          obtain ⟨first, later⟩ := List.cons.inj same
          obtain ⟨identifiers, ends⟩ := ih others (bit + 1) later
          rw [List.map_cons, List.map_cons, (flagLine_eq_iff _ _ bit).mp first, identifiers]
          exact ⟨rfl, ends⟩

theorem FlagWord.structLines_append (word : FlagWord) (rest : List String) :
    word.structLines ++ rest =
      word.flags.zipIdx.map (fun (flag, bit) => flagLine flag.name bit) ++
        fieldLine word.name word.backing.structType :: rest := by
  rw [word.structLines_eq, List.append_assoc, List.singleton_append]

theorem Member.structLines_ne_nil (member : Member) : member.structLines ≠ [] := by
  cases member with
  | plain field => simp [Member.structLines]
  | packed word => simp [Member.structLines, FlagWord.structLines]

theorem fieldLine_ne_wordLines (name type : String) (word : FlagWord) (flags : word.flags ≠ [])
    (rest tail : List String) : fieldLine name type :: rest ≠ word.structLines ++ tail := by
  intro same
  obtain ⟨flag, flags, isCons⟩ := List.exists_cons_of_ne_nil flags
  rw [word.structLines_append, isCons] at same
  exact flagLine_ne_fieldLine _ _ _ _ (List.cons.inj same).1.symm

/-- A word starts with the line of a flag, and a plain field does not. -/
theorem Member.structLines_append_inj (member other : Member) (rest tail : List String)
    (legible : member.Legible) (otherLegible : other.Legible)
    (same : member.structLines ++ rest = other.structLines ++ tail) :
    member.item = other.item ∧ rest = tail := by
  cases member with
  | plain field =>
      cases other with
      | plain otherField =>
          obtain ⟨line, lines⟩ := List.cons.inj same
          obtain ⟨identifiers, types⟩ := fieldLine_inj _ _ _ _ legible.1 otherLegible.1 line
          have shapes := Shape.structType_inj _ _ legible.2 otherLegible.2 types
          rw [Member.item, Member.item, identifiers, shapes]
          exact ⟨rfl, lines⟩
      | packed otherWord =>
          exact absurd same (fieldLine_ne_wordLines _ _ otherWord otherLegible.2 _ _)
  | packed word =>
      cases other with
      | plain otherField =>
          exact absurd same.symm (fieldLine_ne_wordLines _ _ word legible.2 _ _)
      | packed otherWord =>
          simp only [Member.structLines, FlagWord.structLines_append] at same
          obtain ⟨flags, line, lines⟩ := flagLines_inj _ _ 0 _ _ _ _ _ _ same
          obtain ⟨identifiers, types⟩ := fieldLine_inj _ _ _ _ legible.1 otherLegible.1 line
          have backings := Numeric.structType_injective _ _ types
          rw [Member.item, Member.item, flags, identifiers, backings]
          exact ⟨rfl, lines⟩

theorem memberLines_inj (members others : List Member)
    (legible : ∀ member ∈ members, member.Legible)
    (othersLegible : ∀ member ∈ others, member.Legible)
    (same : members.flatMap Member.structLines = others.flatMap Member.structLines) :
    members.map Member.item = others.map Member.item := by
  induction members generalizing others with
  | nil =>
      cases others with
      | nil => rfl
      | cons other others =>
          rw [List.flatMap_nil, List.flatMap_cons] at same
          exact absurd (List.append_eq_nil_iff.mp same.symm).1 other.structLines_ne_nil
  | cons member members ih =>
      cases others with
      | nil =>
          rw [List.flatMap_nil, List.flatMap_cons] at same
          exact absurd (List.append_eq_nil_iff.mp same).1 member.structLines_ne_nil
      | cons other others =>
          rw [List.flatMap_cons, List.flatMap_cons] at same
          obtain ⟨item, lines⟩ := Member.structLines_append_inj member other _ _
            (legible member (by simp)) (othersLegible other (by simp)) same
          have later := ih others (fun m inside => legible m (List.mem_cons_of_mem _ inside))
            (fun m inside => othersLegible m (List.mem_cons_of_mem _ inside)) lines
          rw [List.map_cons, List.map_cons, item, later]

theorem flagLines_congr (flags others : List Field) (bit : Nat)
    (same : List.Forall₂ (fun flag other => identifier flag.name = identifier other.name)
      flags others) :
    (flags.zipIdx bit).map (fun (flag, bit) => flagLine flag.name bit) =
      (others.zipIdx bit).map (fun (flag, bit) => flagLine flag.name bit) := by
  induction same generalizing bit with
  | nil => rfl
  | cons first _ ih =>
      exact congrArg₂ List.cons ((flagLine_eq_iff _ _ bit).mpr first) (ih (bit + 1))

theorem Member.structLines_congr (member other : Member) (same : member.item = other.item) :
    member.structLines = other.structLines := by
  cases member with
  | plain field =>
      cases other with
      | plain otherField =>
          obtain ⟨identifiers, shapes⟩ := StructItem.field.inj same
          rw [Member.structLines, Member.structLines, fieldLine, fieldLine, identifiers, shapes]
      | packed otherWord => cases same
  | packed word =>
      cases other with
      | plain otherField => cases same
      | packed otherWord =>
          obtain ⟨flags, identifiers, backings⟩ := StructItem.word.inj same
          have flagLines := flagLines_congr _ _ 0 ((map_eq_map_iff_forall₂ _ _ _).mp flags)
          rw [Member.structLines, Member.structLines, FlagWord.structLines_eq,
            FlagWord.structLines_eq, flagLines, fieldLine, fieldLine, identifiers, backings]

theorem memberLines_congr (members others : List Member)
    (same : members.map Member.item = others.map Member.item) :
    members.flatMap Member.structLines = others.flatMap Member.structLines := by
  have pairs := ((map_eq_map_iff_forall₂ _ _ _).mp same).imp Member.structLines_congr
  rw [List.flatMap_def, List.flatMap_def, (map_eq_map_iff_forall₂ _ _ _).mpr pairs]

theorem blank_of_mem_structLines (member : Member) :
    ∀ line ∈ member.structLines, line.toList[0]? = some ' ' := by
  intro line inside
  cases member with
  | plain field =>
      rw [List.mem_singleton.mp inside]
      exact getElem?_fieldLine _ _ 0 ' ' (by decide)
  | packed word =>
      rw [Member.structLines, FlagWord.structLines_eq, List.mem_append, List.mem_singleton,
        List.mem_map] at inside
      rcases inside with ⟨⟨flag, bit⟩, -, rfl⟩ | rfl
      · exact getElem?_flagLine _ _ 0 ' ' (by decide)
      · exact getElem?_fieldLine _ _ 0 ' ' (by decide)

/-- A way of writing any text within one line, from which the text can be told. -/
structure IsQuoting (quote : String → String) : Prop where
  injective : ∀ text other, quote text = quote other → text = other
  oneLine : ∀ text, '\n' ∉ (quote text).toList

theorem isQuoting_quoteLiteral : IsQuoting quoteLiteral :=
  ⟨quoteLiteral_injective, not_newline_quoteLiteral⟩

structure Record.Alike (record other : Record) : Prop where
  name : record.name = other.name
  items : record.members.map Member.item = other.members.map Member.item

section WellFormed

variable {record : Record} (wellFormed : record.WellFormed)

include wellFormed in
theorem legible_of_wellFormed : ∀ member ∈ record.members, member.Legible := by
  intro member inside
  have name := wellFormed.names member inside
  cases member with
  | plain field =>
      have noFlag := wellFormed.plain field inside
      exact ⟨name, by simpa [Field.isFlag] using noFlag⟩
  | packed word =>
      rcases wellFormed.words word inside with ⟨width, isWord⟩
      have positive := word.backing.bitWidth?_pos width isWord.wide
      rw [← isWord.full] at positive
      exact ⟨name, List.length_pos_iff.mp positive⟩

include wellFormed in
theorem isIndented_bodyLines :
    ∀ line ∈ record.members.flatMap Member.structLines, IsIndented line := by
  intro line inside
  refine ⟨(isLine_bodyLines record wellFormed line inside).noBreak, ?_⟩
  rcases List.mem_flatMap.mp inside with ⟨member, -, fromMember⟩
  exact blank_of_mem_structLines member line fromMember

end WellFormed

def structsLines (records : List Record) : List String :=
  records.flatMap fun record => "" :: record.structLines

def openingLines (name : String) : List String :=
  ["", "#[derive(ParamStruct, Debug)]", "#[repr(C)]", "pub struct " ++ name ++ " \x7b"]

theorem structsLines_cons (record : Record) (records : List Record) :
    structsLines (record :: records) = openingLines record.name ++
      (record.members.flatMap Member.structLines ++ "\x7d" :: structsLines records) := by
  simp [structsLines, openingLines, Record.structLines]

/-- The name of a record opens its struct as it is, line breaks and all, so the structs are cut
apart by names that are known already. -/
theorem structsLines_inj (first second : List Record)
    (wellFormed : ∀ record ∈ first, record.WellFormed)
    (otherWellFormed : ∀ record ∈ second, record.WellFormed)
    (names : List.Forall₂ (fun record other => record.name = other.name) first second)
    (same : unlines (structsLines first) = unlines (structsLines second)) :
    List.Forall₂ Record.Alike first second := by
  induction names with
  | nil => exact .nil
  | @cons record other first second name _ ih =>
      have isWellFormed := wellFormed record (by simp)
      have isOtherWellFormed := otherWellFormed other (by simp)
      rw [structsLines_cons, structsLines_cons, name] at same
      obtain ⟨bodies, rest⟩ := unlines_cut _ _ _ _ _ "\x7d" (isIndented_bodyLines isWellFormed)
        (isIndented_bodyLines isOtherWellFormed) (by decide) (by decide) same
      have items := memberLines_inj _ _ (legible_of_wellFormed isWellFormed)
        (legible_of_wellFormed isOtherWellFormed) bodies
      apply List.Forall₂.cons ⟨name, items⟩
      exact ih (fun r inside => wellFormed r (List.mem_cons_of_mem _ inside))
        (fun r inside => otherWellFormed r (List.mem_cons_of_mem _ inside)) rest

theorem structsLines_congr (first second : List Record)
    (alike : List.Forall₂ Record.Alike first second) :
    structsLines first = structsLines second := by
  induction alike with
  | nil => rfl
  | cons isAlike _ ih =>
      rw [structsLines_cons, structsLines_cons, isAlike.name, memberLines_congr _ _ isAlike.items,
        ih]

section Quote

variable (quote : String → String)

theorem sourceLines_eq (records : List Record) :
    sourceLines quote records = (headerLines ++ ["", "pub const RECORD_NAMES: &[&str] = &["]) ++
      (records.map (entryLine quote) ++ "];" :: structsLines records) := by
  simp [sourceLines, nameTableLines, structsLines]

theorem sourceText_congr (first second : List Record)
    (alike : List.Forall₂ Record.Alike first second) :
    sourceText quote first = sourceText quote second := by
  have entries : first.map (entryLine quote) = second.map (entryLine quote) := by
    apply (map_eq_map_iff_forall₂ _ _ _).mpr
    apply alike.imp
    intro record other isAlike
    rw [entryLine, entryLine, isAlike.name]
  rw [sourceText, sourceText, sourceLines_eq, sourceLines_eq, entries,
    structsLines_congr first second alike]

variable (quotes : IsQuoting quote)

include quotes in
theorem isIndented_entryLine (record : Record) : IsIndented (entryLine quote record) := by
  constructor
  · simp [entryLine, quotes.oneLine]
  · simp [entryLine]

include quotes in
theorem entryLine_inj (record other : Record)
    (same : entryLine quote record = entryLine quote other) : record.name = other.name := by
  have fronts := (String.append_left_inj ",").mp same
  exact quotes.injective _ _ ((String.append_right_inj "    ").mp fronts)

include quotes in
theorem sourceText_inj (first second : List Record)
    (wellFormed : ∀ record ∈ first, record.WellFormed)
    (otherWellFormed : ∀ record ∈ second, record.WellFormed)
    (same : sourceText quote first = sourceText quote second) :
    List.Forall₂ Record.Alike first second := by
  have indented : ∀ records : List Record,
      ∀ line ∈ records.map (entryLine quote), IsIndented line := by
    intro records line inside
    obtain ⟨record, -, rfl⟩ := List.mem_map.mp inside
    exact isIndented_entryLine quote quotes record
  rw [sourceText, sourceText, sourceLines_eq, sourceLines_eq] at same
  obtain ⟨entries, structs⟩ := unlines_cut _ _ _ _ _ "];" (indented first) (indented second)
    (by decide) (by decide) same
  have names := ((map_eq_map_iff_forall₂ _ _ _).mp entries).imp (entryLine_inj quote quotes)
  exact structsLines_inj first second wellFormed otherWellFormed names structs

end Quote

/-- The text of built records tells apart all that structs show of them, whatever the records are
called. -/
theorem sourceText_eq_iff (quote : String → String) (quotes : IsQuoting quote)
    (first second : List Record)
    (built : ∀ record ∈ first, ∃ source : RecordSource, source.build = .ok record)
    (otherBuilt : ∀ record ∈ second, ∃ source : RecordSource, source.build = .ok record) :
    sourceText quote first = sourceText quote second ↔
      List.Forall₂ Record.Alike first second := by
  have wellFormed : ∀ records : List Record,
      (∀ record ∈ records, ∃ source : RecordSource, source.build = .ok record) →
        ∀ record ∈ records, record.WellFormed := by
    intro records allBuilt record inside
    obtain ⟨source, isBuilt⟩ := allBuilt record inside
    exact build_wellFormed source record isBuilt
  constructor
  · exact sourceText_inj quote quotes first second (wellFormed first built)
      (wellFormed second otherBuilt)
  · exact sourceText_congr quote first second

/-- A record whose name has a quote, and a line break before a brace that could end a struct. -/
def brokenRecord (field : String) : Record := ⟨"A\"\n\x7d", [.plain ⟨field, .scalar .u8⟩]⟩

theorem build_broken :
    RecordSource.build ⟨"A\"\n\x7d", ["u8 Type"]⟩ = .ok (brokenRecord "Type") ∧
      RecordSource.build ⟨"A\"\n\x7d", ["u8 ty"]⟩ = .ok (brokenRecord "ty") := by
  decide +kernel

theorem sourceText_eq_iff_broken :
    (∃ source : RecordSource, source.build = .ok (brokenRecord "Type")) ∧
      (∃ source : RecordSource, source.build = .ok (brokenRecord "ty")) ∧
      (∃ source : RecordSource, source.build = .ok sampleRecord) ∧
      sourceText quoteLiteral [brokenRecord "Type", sampleRecord] =
        sourceText quoteLiteral [brokenRecord "ty", sampleRecord] ∧
      sourceText quoteLiteral [brokenRecord "ty", sampleRecord] ≠
        sourceText quoteLiteral [sampleRecord, brokenRecord "ty"] := by
  have upper : ∃ source : RecordSource, source.build = .ok (brokenRecord "Type") :=
    ⟨_, build_broken.1⟩
  have lower : ∃ source : RecordSource, source.build = .ok (brokenRecord "ty") :=
    ⟨_, build_broken.2⟩
  have sample : ∃ source : RecordSource, source.build = .ok sampleRecord := ⟨_, build_sample⟩
  refine ⟨upper, lower, sample, ?_, ?_⟩
  · apply (sourceText_eq_iff _ isQuoting_quoteLiteral _ _ (by simp [upper, sample])
      (by simp [lower, sample])).mpr
    have items : (brokenRecord "Type").members.map Member.item =
        (brokenRecord "ty").members.map Member.item := by decide +kernel
    exact .cons ⟨rfl, items⟩ (.cons ⟨rfl, rfl⟩ .nil)
  · intro same
    have alike := (sourceText_eq_iff _ isQuoting_quoteLiteral _ _ (by simp [lower, sample])
      (by simp [lower, sample])).mp same
    have names : (brokenRecord "ty").name ≠ sampleRecord.name := by decide
    cases alike with
    | cons first _ => exact names first.name

end BinaryRecord
