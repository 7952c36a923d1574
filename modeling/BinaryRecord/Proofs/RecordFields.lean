import BinaryRecord.Proofs.Building
import BinaryRecord.Proofs.DefinitionForm

namespace BinaryRecord

structure FlagWord.WellFormed (word : FlagWord) (width : Nat) : Prop where
  wide : word.backing.bitWidth? = some width
  full : word.flags.length = width
  bits : word.bits.map Prod.fst = List.range width
  flags : ∀ flag ∈ word.flags,
    ∃ bits, flag.shape = .flag word.backing bits ∧ 1 ≤ bits ∧ bits ≤ width

structure Record.WellFormed (record : Record) : Prop where
  plain : ∀ field, .plain field ∈ record.members → field.isFlag = false
  words : ∀ word, .packed word ∈ record.members → ∃ width, word.WellFormed width
  counts : ∀ field ∈ record.fields, ∀ element count, field.shape = .array element count →
    1 ≤ count ∧ count < wordLimit
  names : ∀ member ∈ record.members, IsWord member.name.toList
  fieldNames : ∀ field ∈ record.fields, IsWord field.name.toList
  ordinals : record.words.map FlagWord.ordinal = List.range record.words.length

structure Field.Sound (field : Field) : Prop where
  gives : ∃ number suffix, Suffix.Gives number suffix field.shape
  name : IsWord field.name.toList

theorem Field.sound_of_read (text : String) (field : Field) (read : Field.read text = .ok field) :
    field.Sound := by
  rcases (Field.read_eq_ok_iff_definition text field).mp read with
    ⟨definition, definitionRead, made⟩
  rcases (readDefinition?_eq_some_iff _ _).mp definitionRead with ⟨parts, rfl, -⟩
  rcases (Definition.field_eq_ok_iff _ field).mp made with ⟨name, shape⟩
  rcases (Definition.shape_eq_ok_iff _ _).mp shape with ⟨number, -, gives⟩
  refine ⟨⟨number, _, gives⟩, ?_⟩
  rw [← name]
  simpa [DefinitionText.definition] using parts.nameWord

theorem isWord_numbered (name : String) (number : Nat) (word : IsWord name.toList) :
    IsWord (numbered name number).toList := by
  rw [toList_numbered]
  refine ⟨by simp, ?_⟩
  intro c member
  rcases List.mem_append.mp member with inName | inNumber
  · exact word.all c inName
  · rcases List.mem_cons.mp inNumber with rfl | digit
    · decide
    · exact isWordChar_of_isDigit c (isDigit_of_mem_decimal number c digit)

theorem Renames.isWord {name final : String} (renames : Renames name final)
    (word : IsWord name.toList) : IsWord final.toList := by
  rcases renames with rfl | ⟨number, rfl⟩
  · exact word
  · exact isWord_numbered name number word

theorem isWord_bitfield (ordinal : Nat) : IsWord ("bitfield" ++ decimal ordinal).toList := by
  rw [String.toList_append]
  have stem : "bitfield".toList.all isWordChar = true := by decide
  refine ⟨by simp, ?_⟩
  intro c member
  rcases List.mem_append.mp member with inStem | digit
  · exact List.all_eq_true.mp stem c inStem
  · exact isWordChar_of_isDigit c (isDigit_of_mem_decimal ordinal c digit)

theorem Field.Settles.sound {field final : Field} (settles : field.Settles final)
    (sound : field.Sound) : final.Sound := by
  refine ⟨?_, settles.name.isWord sound.name⟩
  rw [settles.shape]
  exact sound.gives

theorem Field.Settles.backing? {field final : Field} (settles : field.Settles final) :
    final.backing? = field.backing? := by
  simp only [Field.backing?, settles.shape]

theorem Field.Sound.count (field : Field) (sound : field.Sound) (element : Numeric) (count : Nat)
    (shape : field.shape = .array element count) : 1 ≤ count ∧ count < wordLimit := by
  rcases sound.gives with ⟨number, suffix, gives⟩
  rw [shape] at gives
  cases gives with
  | array least most => exact ⟨least, most⟩

theorem Field.Sound.flag (field : Field) (sound : field.Sound) (backing : Numeric) (width : Nat)
    (flag : field.backing? = some backing) (wide : backing.bitWidth? = some width) :
    ∃ bits, field.shape = .flag backing bits ∧ 1 ≤ bits ∧ bits ≤ width := by
  rcases sound.gives with ⟨number, suffix, gives⟩
  rcases field with ⟨name, shape⟩
  cases gives with
  | scalar => exact absurd flag (by simp [Field.backing?, Shape.backing?])
  | array => exact absurd flag (by simp [Field.backing?, Shape.backing?])
  | @flag bits ownWidth ownWide least most =>
      simp only [Field.backing?, Shape.backing?, Option.some.injEq] at flag
      subst flag
      rw [wide, Option.some.injEq] at ownWide
      exact ⟨bits, rfl, least, ownWide ▸ most⟩

theorem ordinals_settle (members finals : List Member)
    (settle : List.Forall₂ Member.Settles members finals) :
    (finals.filterMap Member.packed?).map FlagWord.ordinal =
      (members.filterMap Member.packed?).map FlagWord.ordinal := by
  induction settle with
  | nil => rfl
  | cons settles _ ih =>
      cases settles with
      | plain => exact ih
      | packed => simp [Member.packed?, ih]

theorem FlagWord.map_fst_bits (word : FlagWord) :
    word.bits.map Prod.fst = List.range word.flags.length := by
  apply List.ext_getElem?
  intro bit
  rw [List.getElem?_map, word.getElem?_bits, Option.map_map]
  by_cases bound : bit < word.flags.length
  · simp [List.getElem?_eq_getElem bound, List.getElem?_range bound]
  · simp [Nat.not_lt.mp bound]

theorem FlagWord.map_snd_bits (word : FlagWord) : word.bits.map Prod.snd = word.flags := by
  apply List.ext_getElem?
  intro bit
  rw [List.getElem?_map, word.getElem?_bits, Option.map_map]
  exact Option.map_id'

section Settled

variable {members : List Member} (packed : WellPacked members)
  (sound : ∀ field ∈ flatten members, field.Sound)

include packed in
theorem distinctMembers_plain (final : Field) (member : .plain final ∈ distinctMembers members) :
    final.isFlag = false := by
  rcases exists_item_of_mem (members_settle members) _ member with ⟨source, inside, settles⟩
  cases settles with
  | @plain field _ settles =>
      have noBacking : field.backing? = none := packed.member _ inside
      simp [Field.isFlag, settles.backing?, noBacking]

include packed sound in
theorem distinctMembers_word (final : FlagWord)
    (member : .packed final ∈ distinctMembers members) :
    ∃ width, final.WellFormed width := by
  rcases exists_item_of_mem (members_settle members) _ member with ⟨source, inside, settles⟩
  cases settles with
  | @packed word name renames =>
      obtain ⟨-, wide, backings⟩ : (Member.packed word).WellPacked := packed.member _ inside
      refine ⟨word.flags.length, wide, distinct_length word.flags, ?_, ?_⟩
      · rw [FlagWord.map_fst_bits]
        exact congrArg List.range (distinct_length word.flags)
      · intro flag flagInside
        rcases exists_item_of_mem (flags_settle word.flags) flag flagInside with
          ⟨original, originalInside, flagSettles⟩
        have originalSound := sound original
          (List.mem_flatMap.mpr ⟨.packed word, inside, originalInside⟩)
        apply (flagSettles.sound originalSound).flag
        · rw [flagSettles.backing?, backings original originalInside]
        · exact wide

include sound in
theorem distinctMembers_sound (final : Field)
    (member : final ∈ flatten (distinctMembers members)) : final.Sound := by
  rcases exists_item_of_mem (flatten_settles members _ (members_settle members)) final member with
    ⟨field, inside, settles⟩
  exact settles.sound (sound field inside)

include packed sound in
theorem distinctMembers_name (final : Member) (member : final ∈ distinctMembers members) :
    IsWord final.name.toList := by
  rcases exists_item_of_mem (members_settle members) final member with ⟨source, inside, settles⟩
  cases settles with
  | @plain field final settles =>
      have fieldSound := sound field
        (List.mem_flatMap.mpr ⟨.plain field, inside, List.mem_singleton.mpr rfl⟩)
      exact (settles.sound fieldSound).name
  | @packed word name renames =>
      obtain ⟨named, -⟩ : (Member.packed word).WellPacked := packed.member _ inside
      apply Renames.isWord renames
      rw [named]
      exact isWord_bitfield word.ordinal

include packed in
theorem distinctMembers_ordinals :
    ((distinctMembers members).filterMap Member.packed?).map FlagWord.ordinal =
      List.range ((distinctMembers members).filterMap Member.packed?).length := by
  have settled := ordinals_settle members _ (members_settle members)
  have sameLength := congrArg List.length settled
  simp only [List.length_map] at sameLength
  rw [settled, sameLength, WellPackedFrom.ordinals 0 members packed, List.range_eq_range']

end Settled

theorem RecordSource.exists_of_build (source : RecordSource) (record : Record)
    (built : source.build = .ok record) :
    ∃ members, record = ⟨source.name, distinctMembers members⟩ ∧ WellPacked members ∧
      ReadAs source.definitions (flatten members) :=
  (source.build_eq_ok_iff_wellPacked record).mp built

theorem build_wellFormed (source : RecordSource) (record : Record)
    (built : source.build = .ok record) : record.WellFormed := by
  rcases source.exists_of_build record built with ⟨members, rfl, packed, read⟩
  have sound : ∀ field ∈ flatten members, field.Sound := by
    intro field member
    rcases exists_item_of_mem read field member with ⟨definition, -, isRead⟩
    exact Field.sound_of_read definition field isRead
  exact {
    plain := distinctMembers_plain packed
    words := distinctMembers_word packed sound
    counts := fun field member => (distinctMembers_sound sound field member).count
    names := distinctMembers_name packed sound
    fieldNames := fun field member => (distinctMembers_sound sound field member).name
    ordinals := distinctMembers_ordinals packed }

theorem build_wellFormed_sample :
    sampleSource.build = .ok sampleRecord ∧ sampleRecord.WellFormed :=
  ⟨build_sample, build_wellFormed sampleSource sampleRecord build_sample⟩

def Defines (definition : String) (final : Field) : Prop :=
  ∃ field, Field.read definition = .ok field ∧ field.Settles final

theorem defines_of_settle (definitions : List String) (fields finals : List Field)
    (read : ReadAs definitions fields) (settle : List.Forall₂ Field.Settles fields finals) :
    List.Forall₂ Defines definitions finals := by
  induction read generalizing finals with
  | nil =>
      cases settle with
      | nil => exact .nil
  | @cons definition field definitions fields isRead _ ih =>
      cases settle with
      | @cons _ final _ finals settles later =>
          exact .cons ⟨field, isRead, settles⟩ (ih finals later)

theorem build_defines (source : RecordSource) (record : Record)
    (built : source.build = .ok record) :
    List.Forall₂ Defines source.definitions record.fields := by
  rcases source.exists_of_build record built with ⟨members, rfl, -, read⟩
  exact defines_of_settle _ _ _ read (flatten_settles members _ (members_settle members))

/-- A flag stands among all fields where its word starts, and as many places on as its bit. -/
theorem getElem?_flatten_of_mem_bits (front back : List Member) (word : FlagWord) (bit : Nat)
    (flag : Field) (member : (bit, flag) ∈ word.bits) :
    (flatten (front ++ .packed word :: back))[(flatten front).length + bit]? = some flag := by
  have flagAt : word.flags[bit]? = some flag := by
    rcases List.mem_iff_getElem?.mp member with ⟨place, pairAt⟩
    rw [word.getElem?_bits, Option.map_eq_some_iff] at pairAt
    rcases pairAt with ⟨original, originalAt, same⟩
    cases same
    exact originalAt
  have bound : bit < word.flags.length := (List.getElem?_eq_some_iff.mp flagAt).1
  have cut : flatten (front ++ .packed word :: back) =
      flatten front ++ (word.flags ++ flatten back) := flatten_append front _
  rw [cut, List.getElem?_append_right (by omega), Nat.add_sub_cancel_left,
    List.getElem?_append_left bound, flagAt]

/-- Building loses no field, adds none, and keeps them in order. -/
theorem build_keeps_fields (source : RecordSource) (record : Record)
    (built : source.build = .ok record) :
    record.name = source.name ∧ record.fields.length = source.definitions.length ∧
      (∀ (place : Nat) (definition : String), source.definitions[place]? = some definition →
        ∃ final, record.fields[place]? = some final ∧ Defines definition final) ∧
      ∀ (front back : List Member) (word : FlagWord),
        record.members = front ++ .packed word :: back →
          word.bits.map Prod.fst = List.range word.flags.length ∧
          word.bits.map Prod.snd = word.flags ∧
          ∀ (bit : Nat) (flag : Field), (bit, flag) ∈ word.bits →
            ∃ definition, source.definitions[(flatten front).length + bit]? = some definition ∧
              Defines definition flag := by
  have defines := build_defines source record built
  refine ⟨?_, defines.length_eq.symm, exists_final_of_getElem? defines, ?_⟩
  · rcases source.exists_of_build record built with ⟨members, rfl, -⟩
    rfl
  · intro front back word cut
    refine ⟨word.map_fst_bits, word.map_snd_bits, ?_⟩
    intro bit flag member
    have flagAt : record.fields[(flatten front).length + bit]? = some flag := by
      rw [Record.fields, cut]
      exact getElem?_flatten_of_mem_bits front back word bit flag member
    exact exists_item_of_getElem? defines _ flag flagAt

theorem build_keeps_fields_sample :
    sampleSource.build = .ok sampleRecord ∧
      sampleRecord.fields.length = sampleSource.definitions.length ∧
      ∃ definition, sampleSource.definitions[2]? = some definition ∧
        Defines definition ⟨"On_0", .flag .u8 1⟩ := by
  have kept := build_keeps_fields sampleSource sampleRecord build_sample
  refine ⟨build_sample, kept.2.1, ?_⟩
  have bits := kept.2.2.2 [.plain ⟨"bitfield0", .scalar .u32⟩] [.plain ⟨"last", .array .u16 3⟩]
    ⟨"bitfield0_0", 0, .u8, sampleFlags "On_0"⟩ rfl
  exact bits.2.2 1 ⟨"On_0", .flag .u8 1⟩ (by decide)

end BinaryRecord
