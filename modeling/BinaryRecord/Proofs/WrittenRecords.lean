import BinaryRecord.Proofs.RecordFields

namespace BinaryRecord

/-- A record that packing and renaming have nothing to do to. -/
structure Record.Canonical (record : Record) : Prop where
  packed : WellPacked record.members
  sound : ∀ field ∈ record.fields, field.Sound
  apart : DistinctNames record.members
  flagsApart : ∀ word, .packed word ∈ record.members → DistinctNames word.flags

theorem Shape.gives_suffixParts (shape : Shape) (number : Numeric) (suffix : Suffix)
    (gives : suffix.Gives number shape) :
    shape.suffixParts.suffix.Gives shape.number shape := by
  cases gives with
  | scalar => exact .scalar
  | @array count least most =>
      simp only [suffixParts, SuffixText.suffix, numeralValue_decimal]
      exact .array least most
  | @flag bits width wide least most =>
      simp only [suffixParts, SuffixText.suffix, numeralValue_decimal]
      exact .flag wide least most

theorem Field.read_of_isWritten (field : Field) (definition : String) (sound : field.Sound)
    (written : field.IsWritten definition) : Field.read definition = .ok field := by
  rcases written with ⟨⟨token, number⟩, member, rfl, rfl⟩
  rcases sound.gives with ⟨number, suffix, gives⟩
  have tokenWord := isWord_of_mem_typeTokens _ member
  have read := (field.writtenParts token tokenWord sound.name).readDefinition?_chars
  rw [Field.chars_writtenParts] at read
  refine (Field.read_eq_ok_iff_definition _ field).mpr ⟨_, read, ?_⟩
  refine (Definition.field_eq_ok_iff _ field).mpr ⟨String.ofList_toList, ?_⟩
  apply (Definition.shape_eq_ok_iff _ field.shape).mpr
  refine ⟨field.shape.number, ?_, field.shape.gives_suffixParts number suffix gives⟩
  simpa [DefinitionText.definition, Field.writtenParts] using member

theorem readAs_of_isWritten (fields : List Field) (definitions : List String)
    (sound : ∀ field ∈ fields, field.Sound)
    (written : List.Forall₂ Field.IsWritten fields definitions) : ReadAs definitions fields := by
  induction written with
  | nil => exact .nil
  | @cons field definition fields definitions isWritten _ ih =>
      have read := field.read_of_isWritten definition (sound field (by simp)) isWritten
      exact .cons read (ih fun later member => sound later (List.mem_cons_of_mem _ member))

theorem distinctMembers_eq_self (members : List Member) (apart : DistinctNames members)
    (flagsApart : ∀ word, .packed word ∈ members → DistinctNames word.flags) :
    distinctMembers members = members := by
  rw [distinctMembers, distinct_eq_self members apart]
  have kept : ∀ member ∈ members, member.distinctFlags = member := by
    intro member inside
    cases member with
    | plain field => rfl
    | packed word => rw [Member.distinctFlags, distinct_eq_self word.flags (flagsApart word inside)]
  calc
    members.map Member.distinctFlags = members.map id := List.map_congr_left kept
    _ = members := List.map_id members

/-- Building a record undoes writing its fields, whichever tokens they are written with. -/
theorem build_written (record : Record) (canonical : record.Canonical)
    (definitions : List String)
    (written : List.Forall₂ Field.IsWritten record.fields definitions) :
    RecordSource.build ⟨record.name, definitions⟩ = .ok record := by
  have read := readAs_of_isWritten record.fields definitions canonical.sound written
  have kept := distinctMembers_eq_self record.members canonical.apart canonical.flagsApart
  apply (RecordSource.build_eq_ok_iff_wellPacked _ record).mpr
  refine ⟨record.members, ?_, canonical.packed, read⟩
  rw [kept]

def canonicalSample : Record :=
  ⟨"Canonical", [.plain ⟨"title", .array .u16 12⟩,
    .packed (.ofRun 0 .u8 (sampleFlags "off")),
    .packed (.ofRun 1 .i8 ((sampleFlags "off").map fun flag => { flag with shape := .flag .i8 8 })),
    .plain ⟨"rate", .scalar .float⟩]⟩

def canonicalTexts : List String :=
  ["fixstrW title[12]", "u8 on:1", "dummy8 off:1", "u8 c:2", "u8 d:1", "u8 e:8", "fixstr f:1",
    "u8 g:1", "u8 h:1", "s8 on:8", "s8 off:8", "s8 c:8", "s8 d:8", "s8 e:8", "s8 f:8", "s8 g:8",
    "s8 h:8", "f32 rate"]

theorem canonicalSample_canonical : canonicalSample.Canonical where
  packed := ⟨rfl, rfl, ⟨rfl, rfl, by decide⟩, rfl, ⟨rfl, rfl, by decide⟩, rfl, trivial⟩
  sound := by
    have read : ∀ field ∈ canonicalSample.fields,
        ∃ definition ∈ canonicalTexts, Field.read definition = .ok field := by decide +kernel
    intro field member
    rcases read field member with ⟨definition, -, isRead⟩
    exact Field.sound_of_read definition field isRead
  apart := by decide +kernel
  flagsApart := by
    have apart : ∀ word ∈ canonicalSample.words, DistinctNames word.flags := by decide +kernel
    intro word member
    exact apart word (List.mem_filterMap.mpr ⟨.packed word, member, rfl⟩)

theorem build_written_sample :
    canonicalSample.Canonical ∧
      List.Forall₂ Field.IsWritten canonicalSample.fields canonicalTexts ∧
      RecordSource.build ⟨"Canonical", canonicalTexts⟩ = .ok canonicalSample := by
  have written : List.Forall₂ Field.IsWritten canonicalSample.fields canonicalTexts := by
    have pairs : ∀ pair ∈ canonicalSample.fields.zip canonicalTexts,
        pair.1.IsWritten pair.2 := by
      decide +kernel
    exact List.forall₂_iff_zip.mpr ⟨rfl, fun {field text} => pairs (field, text)⟩
  exact ⟨canonicalSample_canonical, written,
    build_written canonicalSample canonicalSample_canonical canonicalTexts written⟩

end BinaryRecord
