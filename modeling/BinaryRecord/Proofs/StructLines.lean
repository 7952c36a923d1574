import BinaryRecord.Proofs.Identifiers
import BinaryRecord.Record.Declaration

namespace BinaryRecord

inductive Numeric.IsType : Numeric → String → Prop
  | u8 : IsType .u8 "u8"
  | u16 : IsType .u16 "u16"
  | u32 : IsType .u32 "u32"
  | u64 : IsType .u64 "u64"
  | i8 : IsType .i8 "i8"
  | i16 : IsType .i16 "i16"
  | i32 : IsType .i32 "i32"
  | i64 : IsType .i64 "i64"
  | float : IsType .float "f32"

/-- Definitions, the members that became of them under their final names, and the lines between the
braces of a struct. -/
inductive Declares : List String → List Member → List String → Prop
  | nil : Declares [] [] []
  | scalar {definition name final type : String} {number : Numeric} {definitions : List String}
      {members : List Member} {lines : List String}
      (read : Field.read definition = .ok ⟨name, .scalar number⟩) (renames : Renames name final)
      (isType : number.IsType type) (later : Declares definitions members lines) :
      Declares (definition :: definitions) (.plain ⟨final, .scalar number⟩ :: members)
        (("    pub " ++ fieldIdentifier final ++ ": " ++ type ++ ",") :: lines)
  | array {definition name final type : String} {element : Numeric} {count : Nat}
      {definitions : List String} {members : List Member} {lines : List String}
      (read : Field.read definition = .ok ⟨name, .array element count⟩)
      (renames : Renames name final) (isType : element.IsType type)
      (later : Declares definitions members lines) :
      Declares (definition :: definitions) (.plain ⟨final, .array element count⟩ :: members)
        (("    pub " ++ fieldIdentifier final ++ ": [" ++ type ++ "; " ++ decimal count ++ "],") ::
          lines)
  | run {run : List String} {word : FlagWord} {type : String} {definitions : List String}
      {members : List Member} {lines : List String}
      (wide : word.backing.bitWidth? = some run.length)
      (defines : List.Forall₂ Defines run word.flags)
      (backed : ∀ flag ∈ word.flags, flag.backing? = some word.backing)
      (isType : word.backing.IsType type) (later : Declares definitions members lines) :
      Declares (run ++ definitions) (.packed word :: members)
        (word.flags.zipIdx.map (fun (flag, bit) =>
            "    #[bitflag(" ++ identifier flag.name ++ ", " ++ decimal bit ++ ")]") ++
          ("    pub " ++ fieldIdentifier word.name ++ ": " ++ type ++ ",") :: lines)

theorem Numeric.isType_structType (number : Numeric) : number.IsType number.structType := by
  cases number <;> constructor

theorem Declares.length {definitions : List String} {members : List Member} {lines : List String}
    (declares : Declares definitions members lines) :
    lines.length = definitions.length + (members.filterMap Member.packed?).length := by
  induction declares with
  | nil => rfl
  | scalar _ _ _ _ ih =>
      simp only [List.length_cons, ih, List.filterMap_cons, Member.packed?]
      omega
  | array _ _ _ _ ih =>
      simp only [List.length_cons, ih, List.filterMap_cons, Member.packed?]
      omega
  | run _ defines _ _ _ ih =>
      simp only [List.length_append, List.length_map, List.length_zipIdx, List.length_cons, ih,
        List.filterMap_cons, Member.packed?, defines.length_eq]
      omega

theorem FlagWord.structLines_eq (word : FlagWord) :
    word.structLines = word.flags.zipIdx.map (fun (flag, bit) => flagLine flag.name bit) ++
      [fieldLine word.name word.backing.structType] := by
  rw [FlagWord.structLines, FlagWord.bits, List.map_map]
  rfl

theorem fieldLine_array (name : String) (element : Numeric) (count : Nat) :
    fieldLine name (Shape.array element count).structType =
      "    pub " ++ fieldIdentifier name ++ ": [" ++ element.structType ++ "; " ++
        decimal count ++ "]," := by
  apply String.toList_inj.mp
  simp [fieldLine, Shape.structType]

theorem declares_structLines (members finals : List Member) (definitions : List String)
    (settle : List.Forall₂ Member.Settles members finals)
    (packed : ∀ member ∈ members, member.WellPacked)
    (read : ReadAs definitions (flatten members)) :
    Declares definitions finals (finals.flatMap Member.structLines) := by
  induction settle generalizing definitions with
  | nil =>
      cases read with
      | nil => exact .nil
  | @cons member final members finals settles _ ih =>
      have laterPacked : ∀ later ∈ members, later.WellPacked := fun later inside =>
        packed later (List.mem_cons_of_mem _ inside)
      have isPacked := packed member (by simp)
      rw [flatten_cons] at read
      cases settles with
      | @plain field final settles =>
          cases read with
          | @cons definition _ definitions _ isRead later =>
              have rest := ih definitions laterPacked later
              rcases field with ⟨name, shape⟩
              rcases final with ⟨finalName, finalShape⟩
              obtain rfl : finalShape = shape := settles.shape
              cases finalShape with
              | scalar number =>
                  exact .scalar isRead settles.name number.isType_structType rest
              | array element count =>
                  have declares := Declares.array isRead settles.name element.isType_structType rest
                  rw [← fieldLine_array] at declares
                  exact declares
              | flag backing bits => cases isPacked
      | @packed word name renames =>
          obtain ⟨-, wide, all⟩ : (Member.packed word).WellPacked := isPacked
          -- The definitions of the flags come first, as many as the word has bits.
          have cut := forall₂_of_append word.flags (flatten members) read.flip
          have rest := ih _ laterPacked cut.2.flip
          have defines := defines_of_settle _ _ _ cut.1.flip (flags_settle word.flags)
          have backed : ∀ flag ∈ distinct word.flags, flag.backing? = some word.backing := by
            intro flag inside
            rcases exists_item_of_mem (flags_settle word.flags) flag inside with
              ⟨original, originalInside, flagSettles⟩
            rw [flagSettles.backing?, all original originalInside]
          have declares :
              Declares _ (.packed { word with name, flags := distinct word.flags } :: finals) _ :=
            .run (wide.trans (congrArg some cut.1.length_eq)) defines backed
              word.backing.isType_structType rest
          rw [List.take_append_drop] at declares
          rw [List.flatMap_cons, Member.structLines, FlagWord.structLines_eq, List.append_assoc]
          exact declares

theorem toList_unlines (texts : List String) :
    (unlines texts).toList = texts.flatMap fun line => line.toList ++ ['\n'] := by
  simp [unlines, List.flatMap_map]

theorem lines_unlines (texts : List String) (all : ∀ line ∈ texts, IsLine line.toList) :
    (lines (unlines texts).toList).map String.ofList = texts := by
  rw [toList_unlines]
  induction texts with
  | nil => rfl
  | cons line texts ih =>
      have later := ih fun other member => all other (List.mem_cons_of_mem _ member)
      rw [List.flatMap_cons, List.append_assoc, List.singleton_append,
        lines_append _ _ (all line (by simp)), List.map_cons, String.ofList_toList, later]

theorem not_newline_of_isWord (s : List Char) (word : IsWord s) : '\n' ∉ s :=
  word.not_mem '\n' (by decide)

theorem isLine_append (front back : String) (noBreak : '\n' ∉ front.toList)
    (isLine : IsLine back.toList) (nonempty : back.toList ≠ []) :
    IsLine (front ++ back).toList := by
  rw [String.toList_append]
  exact isLine.append front.toList noBreak nonempty

theorem isLine_fieldLine (name type : String) (word : IsWord name.toList)
    (clean : '\n' ∉ type.toList) : IsLine (fieldLine name type).toList := by
  have noBreak := not_newline_of_isWord _ (isWord_fieldIdentifier name word)
  apply isLine_append _ _ _ (by decide) (by decide)
  simp [noBreak, clean]

theorem not_newline_decimal (n : Nat) : '\n' ∉ (decimal n).toList :=
  (isRun_decimal n).not_mem '\n' (by decide)

theorem not_newline_numeric (number : Numeric) : '\n' ∉ number.structType.toList := by
  cases number <;> decide

theorem not_newline_structType (shape : Shape) : '\n' ∉ shape.structType.toList := by
  cases shape with
  | scalar number => exact not_newline_numeric number
  | array element count =>
      simp [Shape.structType, not_newline_numeric element, not_newline_decimal count]
  | flag backing bits => exact not_newline_numeric backing

theorem isLine_flagLine (name : String) (bit : Nat) (word : IsWord name.toList) :
    IsLine (flagLine name bit).toList := by
  have noBreak := not_newline_of_isWord _ (isWord_identifier name word)
  apply isLine_append _ _ _ (by decide) (by decide)
  simp [noBreak, not_newline_decimal bit]

theorem isLine_memberLines (member : Member) (names : IsWord member.name.toList)
    (fieldNames : ∀ field ∈ member.fields, IsWord field.name.toList) :
    ∀ line ∈ member.structLines, IsLine line.toList := by
  intro line inside
  cases member with
  | plain field =>
      rw [Member.structLines, List.mem_singleton] at inside
      rw [inside]
      exact isLine_fieldLine field.name _ names (not_newline_structType field.shape)
  | packed word =>
      rw [Member.structLines, FlagWord.structLines_eq, List.mem_append, List.mem_singleton,
        List.mem_map] at inside
      rcases inside with ⟨⟨flag, bit⟩, member, rfl⟩ | rfl
      · have flagInside : flag ∈ word.flags := List.fst_mem_of_mem_zipIdx member
        exact isLine_flagLine flag.name bit (fieldNames flag flagInside)
      · exact isLine_fieldLine word.name _ names (not_newline_numeric word.backing)

theorem isLine_bodyLines (record : Record) (wellFormed : record.WellFormed) :
    ∀ line ∈ record.members.flatMap Member.structLines, IsLine line.toList := by
  intro line inside
  rcases List.mem_flatMap.mp inside with ⟨member, memberInside, fromMember⟩
  apply isLine_memberLines member (wellFormed.names member memberInside) _ line fromMember
  intro field fieldInside
  exact wellFormed.fieldNames field (List.mem_flatMap.mpr ⟨member, memberInside, fieldInside⟩)

theorem isLine_structLines (record : Record) (wellFormed : record.WellFormed)
    (oneLine : '\n' ∉ record.name.toList) : ∀ line ∈ record.structLines, IsLine line.toList := by
  intro line inside
  rw [Record.structLines, List.mem_append, List.mem_append] at inside
  rcases inside with (top | body) | last
  · simp only [List.mem_cons, List.not_mem_nil, or_false] at top
    rcases top with rfl | rfl | rfl
    · decide
    · decide
    · apply isLine_append _ _ _ (by decide) (by decide)
      simp [oneLine]
  · exact isLine_bodyLines record wellFormed line body
  · rw [List.mem_singleton.mp last]
    decide

/-- The struct of a record whose name keeps to one line: between the braces stand a line for each
definition, in order, and a line for each run of flags directly after the lines of its flags. -/
theorem build_structText_lines (source : RecordSource) (record : Record)
    (oneLine : '\n' ∉ source.name.toList) (built : source.build = .ok record) :
    ∃ body, (lines record.structText.toList).map String.ofList =
        ["#[derive(ParamStruct, Debug)]", "#[repr(C)]", "pub struct " ++ source.name ++ " \x7b"] ++
          body ++ ["\x7d"] ∧
      Declares source.definitions record.members body ∧
      body.length = source.definitions.length + record.words.length := by
  have wellFormed := build_wellFormed source record built
  rcases source.exists_of_build record built with ⟨members, rfl, packed, read⟩
  have declares := declares_structLines members _ source.definitions (members_settle members)
    packed.member read
  refine ⟨_, ?_, declares, declares.length⟩
  exact lines_unlines _ (isLine_structLines _ wellFormed oneLine)

theorem build_structText_lines_sample :
    sampleSource.build = .ok sampleRecord ∧ '\n' ∉ sampleSource.name.toList ∧
      ∃ body, Declares sampleSource.definitions sampleRecord.members body ∧ body.length = 11 := by
  have oneLine : '\n' ∉ sampleSource.name.toList := by decide
  obtain ⟨body, -, declares, length⟩ :=
    build_structText_lines sampleSource sampleRecord oneLine build_sample
  exact ⟨build_sample, oneLine, body, declares, length⟩

example : sampleRecord.members.flatMap Member.structLines =
    ["    pub bitfield0: u32,", "    #[bitflag(on, 0)]", "    #[bitflag(On_0, 1)]",
     "    #[bitflag(c, 2)]", "    #[bitflag(d, 3)]", "    #[bitflag(e, 4)]", "    #[bitflag(f, 5)]",
     "    #[bitflag(g, 6)]", "    #[bitflag(h, 7)]", "    pub bitfield0_0: u8,",
     "    pub last: [u16; 3],"] := by decide +kernel

end BinaryRecord
