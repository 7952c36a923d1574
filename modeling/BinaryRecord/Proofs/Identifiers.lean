import BinaryRecord.Proofs.RecordFields
import BinaryRecord.Proofs.RecordNames
import Mathlib.Data.List.Nodup

namespace BinaryRecord

/-- The first name is changed into the second, which stays as it is. -/
def Merges (name other : String) : Prop :=
  name = "type" ∧ other = "ty" ∨ startsWithDigit name.toList = true ∧ other = "field" ++ name

instance (name other : String) : Decidable (Merges name other) :=
  inferInstanceAs (Decidable (_ ∨ _))

structure Record.IdentifiersApart (record : Record) : Prop where
  members : (record.members.map fun member => fieldIdentifier member.name).Nodup
  flags : ∀ word, .packed word ∈ record.members →
    (word.flags.map fun flag => identifier flag.name).Nodup

theorem identifier_of_digit (name : String) (digit : startsWithDigit name.toList = true) :
    identifier name = "field" ++ name := by
  rw [identifier, if_pos digit]

theorem identifier_of_not_digit (name : String) (noDigit : startsWithDigit name.toList = false) :
    identifier name = if name = "type" then "ty" else name := by
  simp only [identifier, noDigit, Bool.false_eq_true, if_false]

theorem not_startsWithDigit_field (name : String) :
    startsWithDigit ("field" ++ name).toList = false := by
  rw [String.toList_append]
  rfl

theorem field_append_ne (name other : String) (first : other.toList.head? ≠ some 'f') :
    "field" ++ name ≠ other := by
  intro same
  apply first
  rw [← same, String.toList_append]
  rfl

theorem identifier_eq_of_merges (name other : String) (merges : Merges name other) :
    identifier name = identifier other := by
  rcases merges with ⟨rfl, rfl⟩ | ⟨digit, rfl⟩
  · decide
  · rw [identifier_of_digit name digit, identifier_of_not_digit _ (not_startsWithDigit_field name),
      if_neg (field_append_ne name "type" (by decide))]

theorem merges_of_digit (name other : String) (digit : startsWithDigit name.toList = true)
    (noDigit : startsWithDigit other.toList = false) (same : identifier name = identifier other) :
    Merges name other := by
  rw [identifier_of_digit name digit, identifier_of_not_digit other noDigit] at same
  refine .inr ⟨digit, ?_⟩
  by_cases isType : other = "type"
  · rw [if_pos isType] at same
    exact absurd same (field_append_ne name "ty" (by decide))
  · rw [if_neg isType] at same
    exact same.symm

theorem identifier_eq_iff (name other : String) :
    identifier name = identifier other ↔ name = other ∨ Merges name other ∨ Merges other name := by
  constructor
  · intro same
    cases digit : startsWithDigit name.toList with
    | true =>
        cases otherDigit : startsWithDigit other.toList with
        | true =>
            rw [identifier_of_digit name digit, identifier_of_digit other otherDigit] at same
            exact .inl (by simpa using same)
        | false => exact .inr (.inl (merges_of_digit name other digit otherDigit same))
    | false =>
        cases otherDigit : startsWithDigit other.toList with
        | true => exact .inr (.inr (merges_of_digit other name otherDigit digit same.symm))
        | false =>
            rw [identifier_of_not_digit name digit,
              identifier_of_not_digit other otherDigit] at same
            by_cases isType : name = "type"
            · by_cases otherType : other = "type"
              · exact .inl (isType.trans otherType.symm)
              · rw [if_pos isType, if_neg otherType] at same
                exact .inr (.inl (.inl ⟨isType, same.symm⟩))
            · by_cases otherType : other = "type"
              · rw [if_neg isType, if_pos otherType] at same
                exact .inr (.inr (.inl ⟨otherType, same⟩))
              · rw [if_neg isType, if_neg otherType] at same
                exact .inl same
  · intro related
    rcases related with rfl | merges | merges
    · rfl
    · exact identifier_eq_of_merges name other merges
    · exact (identifier_eq_of_merges other name merges).symm

theorem not_merges_self (name : String) : ¬ Merges name name := by
  intro merges
  rcases merges with ⟨isType, isTy⟩ | ⟨-, longer⟩
  · rw [isType] at isTy
    exact absurd isTy (by decide)
  · have length := congrArg String.length longer
    simp at length

theorem map_identifier_nodup_iff {α : Type} (items : List α) (name : α → String)
    (apart : (items.map name).Nodup) :
    (items.map fun item => identifier (name item)).Nodup ↔
      ∀ item ∈ items, ∀ other ∈ items, ¬ Merges (name item) (name other) := by
  have injective := (List.nodup_map_iff_inj_on apart.of_map).mp apart
  rw [List.nodup_map_iff_inj_on apart.of_map]
  constructor
  · intro identifiers item member other otherMember merges
    have same := identifiers item member other otherMember (identifier_eq_of_merges _ _ merges)
    exact not_merges_self (name item) (same ▸ merges)
  · intro unmerged item member other otherMember same
    rcases (identifier_eq_iff _ _).mp same with equal | merges | merges
    · exact injective item member other otherMember equal
    · exact absurd merges (unmerged item member other otherMember)
    · exact absurd merges (unmerged other otherMember item member)

/-- A struct whose names are apart in snake case has its identifiers apart exactly when none of
those names is changed into another, and neither is a flag's own name inside its word. -/
theorem identifiersApart_iff (record : Record) (members : DistinctNames record.members)
    (flags : ∀ word, .packed word ∈ record.members → DistinctNames word.flags) :
    record.IdentifiersApart ↔
      (∀ member ∈ record.members, ∀ other ∈ record.members,
        ¬ Merges (snakeCase member.name) (snakeCase other.name)) ∧
      ∀ word, .packed word ∈ record.members →
        ∀ flag ∈ word.flags, ∀ other ∈ word.flags, ¬ Merges flag.name other.name := by
  have ofMembers := map_identifier_nodup_iff record.members
    (fun member => snakeCase member.name) members
  have ofFlags : ∀ word, .packed word ∈ record.members →
      ((word.flags.map fun flag => identifier flag.name).Nodup ↔
        ∀ flag ∈ word.flags, ∀ other ∈ word.flags, ¬ Merges flag.name other.name) := by
    intro word member
    apply map_identifier_nodup_iff word.flags Field.name
    apply List.Nodup.of_map snakeCase
    rw [List.map_map]
    exact flags word member
  constructor
  · intro apart
    refine ⟨ofMembers.mp apart.members, ?_⟩
    intro word member
    exact (ofFlags word member).mp (apart.flags word member)
  · intro unmerged
    refine ⟨ofMembers.mpr unmerged.1, ?_⟩
    intro word member
    exact (ofFlags word member).mpr (unmerged.2 word member)

def awkwardSource : RecordSource :=
  ⟨"Awkward", ["u8 Type", "u16 3rd[2]", "u8 isType:1", "u8 type:1", "u8 1st:1", "u8 field2nd:1",
    "u8 Match:1", "u8 Self:1", "u8 _:1", "u8 __a:1", "f32 Loop"]⟩

def awkwardFlags : List Field :=
  [⟨"isType", .flag .u8 1⟩, ⟨"type", .flag .u8 1⟩, ⟨"1st", .flag .u8 1⟩,
    ⟨"field2nd", .flag .u8 1⟩, ⟨"Match", .flag .u8 1⟩, ⟨"Self", .flag .u8 1⟩, ⟨"_", .flag .u8 1⟩,
    ⟨"__a", .flag .u8 1⟩]

def awkwardRecord : Record :=
  ⟨"Awkward", [.plain ⟨"Type", .scalar .u8⟩, .plain ⟨"3rd", .array .u16 2⟩,
    .packed (.ofRun 0 .u8 awkwardFlags), .plain ⟨"Loop", .scalar .float⟩]⟩

theorem build_awkward : awkwardSource.build = .ok awkwardRecord := by decide +kernel

theorem identifiersApart_awkward :
    DistinctNames awkwardRecord.members ∧
      (∀ word, .packed word ∈ awkwardRecord.members → DistinctNames word.flags) ∧
      awkwardRecord.IdentifiersApart := by
  have members : DistinctNames awkwardRecord.members := by decide +kernel
  have flags : ∀ word, .packed word ∈ awkwardRecord.members → DistinctNames word.flags := by
    have apart : ∀ word ∈ awkwardRecord.words, DistinctNames word.flags := by decide +kernel
    intro word member
    exact apart word (List.mem_filterMap.mpr ⟨.packed word, member, rfl⟩)
  refine ⟨members, flags, (identifiersApart_iff awkwardRecord members flags).mpr ⟨?_, ?_⟩⟩
  · decide +kernel
  · have unmerged : ∀ word ∈ awkwardRecord.words,
        ∀ flag ∈ word.flags, ∀ other ∈ word.flags, ¬ Merges flag.name other.name := by
      decide +kernel
    intro word member
    exact unmerged word (List.mem_filterMap.mpr ⟨.packed word, member, rfl⟩)

theorem identifiersApart_fails : ∃ record,
    RecordSource.build ⟨"Merged", ["u8 type", "u16 ty", "u8 1st:1", "u8 field1st:1", "u8 c:1",
      "u8 d:1", "u8 e:1", "u8 f:1", "u8 g:1", "u8 h:1"]⟩ = .ok record ∧
    record.NamesApart ∧
    record.members.map (fun member => fieldIdentifier member.name) = ["ty", "ty", "bitfield0"] ∧
    record.words.map (fun word => word.flags.map fun flag => identifier flag.name) =
      [["field1st", "field1st", "c", "d", "e", "f", "g", "h"]] ∧
    ¬ record.IdentifiersApart := by
  refine ⟨⟨"Merged", [.plain ⟨"type", .scalar .u8⟩, .plain ⟨"ty", .scalar .u16⟩,
    .packed (.ofRun 0 .u8 [⟨"1st", .flag .u8 1⟩, ⟨"field1st", .flag .u8 1⟩, ⟨"c", .flag .u8 1⟩,
      ⟨"d", .flag .u8 1⟩, ⟨"e", .flag .u8 1⟩, ⟨"f", .flag .u8 1⟩, ⟨"g", .flag .u8 1⟩,
      ⟨"h", .flag .u8 1⟩])]⟩, by decide +kernel, ?_, by decide +kernel, by decide +kernel, ?_⟩
  · apply Record.namesApart_of_distinct
    · decide +kernel
    · intro word member
      obtain rfl : word = _ := by simpa using member
      decide +kernel
  · intro apart
    exact absurd apart.members (by decide +kernel)

/-- Keywords of the 2021 edition of Rust, and the words that it keeps for later ones. -/
def reservedWords : List String :=
  ["abstract", "as", "async", "await", "become", "box", "break", "const", "continue", "crate", "do",
    "dyn", "else", "enum", "extern", "false", "final", "fn", "for", "if", "impl", "in", "let",
    "loop", "macro", "match", "mod", "move", "mut", "override", "priv", "pub", "ref", "return",
    "self", "Self", "static", "struct", "super", "trait", "true", "try", "type", "typeof",
    "unsafe", "unsized", "use", "virtual", "where", "while", "yield"]

def HasIdentifierForm (name : String) : Prop :=
  ∃ first rest, name.toList = first :: rest ∧ (first.isAlpha = true ∨ first = '_') ∧
    ∀ c ∈ rest, isWordChar c = true

structure IsIdentifier (name : String) : Prop where
  form : HasIdentifierForm name
  notLone : name ≠ "_"
  free : name ∉ reservedWords

/-- Of the names that are no identifiers for another reason than a digit, `type` is replaced. -/
def unreplacedNames : List String := "_" :: reservedWords.erase "type"

theorem isWordChar_toLower (c : Char) (word : isWordChar c = true) :
    isWordChar c.toLower = true := by
  cases upper : c.isUpper with
  | false => rwa [toLower_of_low c upper]
  | true =>
      have letter : c.toLower.isAlpha = true := by
        change (c.toLower.isUpper || c.toLower.isLower) = true
        rw [isLower_toLower c upper, Bool.or_true]
      simp [isWordChar, Char.isAlphanum, letter]

theorem snakeChars_ne_nil (s : List Char) (nonempty : s ≠ []) : snakeChars s ≠ [] := by
  cases s with
  | nil => exact nonempty
  | cons c s =>
      rw [snakeChars, squeeze_cons_eq]
      exact List.destutter'_ne_nil _ Parted

theorem isWord_snakeCase (name : String) (word : IsWord name.toList) :
    IsWord (snakeCase name).toList := by
  rw [snakeCase, String.toList_ofList]
  refine ⟨snakeChars_ne_nil _ word.nonempty, ?_⟩
  intro c member
  have found := snakeChars_subset _ member
  simp only [List.mem_cons, List.mem_map] at found
  rcases found with rfl | ⟨d, inside, rfl⟩
  · decide
  · exact isWordChar_toLower d (word.all d inside)

theorem hasIdentifierForm_of_word (name : String) (word : IsWord name.toList)
    (noDigit : startsWithDigit name.toList = false) : HasIdentifierForm name := by
  obtain ⟨first, rest, chars⟩ := List.exists_cons_of_ne_nil word.nonempty
  have all := word.all
  rw [chars] at all noDigit
  refine ⟨first, rest, chars, ?_, fun c member => all c (List.mem_cons_of_mem _ member)⟩
  have firstWord := all first (by simp)
  simp only [startsWithDigit, List.head?_cons, Option.any_some] at noDigit
  simpa [isWordChar, Char.isAlphanum, noDigit] using firstWord

theorem hasIdentifierForm_field (name : String) (word : IsWord name.toList) :
    HasIdentifierForm ("field" ++ name) := by
  have chars : ("field" ++ name).toList = 'f' :: ("ield".toList ++ name.toList) := by
    rw [String.toList_append]
    rfl
  have stem : "ield".toList.all isWordChar = true := by decide
  refine ⟨'f', _, chars, .inl (by decide), ?_⟩
  intro c member
  rcases List.mem_append.mp member with inStem | inName
  · exact List.all_eq_true.mp stem c inStem
  · exact word.all c inName

theorem hasIdentifierForm_identifier (name : String) (word : IsWord name.toList) :
    HasIdentifierForm (identifier name) := by
  cases digit : startsWithDigit name.toList with
  | true =>
      rw [identifier_of_digit name digit]
      exact hasIdentifierForm_field name word
  | false =>
      rw [identifier_of_not_digit name digit]
      split
      · refine ⟨'t', ['y'], rfl, .inl (by decide), ?_⟩
        intro c member
        rw [List.mem_singleton.mp member]
        decide
      · exact hasIdentifierForm_of_word name word digit

theorem HasIdentifierForm.isWord {name : String} (form : HasIdentifierForm name) :
    IsWord name.toList := by
  rcases form with ⟨first, rest, chars, start, all⟩
  rw [chars]
  refine ⟨by simp, ?_⟩
  intro c member
  rcases List.mem_cons.mp member with rfl | inside
  · rcases start with letter | rfl
    · simp [isWordChar, Char.isAlphanum, letter]
    · decide
  · exact all c inside

theorem isWord_identifier (name : String) (word : IsWord name.toList) :
    IsWord (identifier name).toList :=
  (hasIdentifierForm_identifier name word).isWord

theorem isWord_fieldIdentifier (name : String) (word : IsWord name.toList) :
    IsWord (fieldIdentifier name).toList :=
  isWord_identifier _ (isWord_snakeCase name word)

theorem isIdentifier_identifier_iff (name : String) (word : IsWord name.toList) :
    IsIdentifier (identifier name) ↔ name ∉ unreplacedNames := by
  have form := hasIdentifierForm_identifier name word
  have split : IsIdentifier (identifier name) ↔ identifier name ∉ "_" :: reservedWords := by
    rw [List.mem_cons, not_or]
    exact ⟨fun legal => ⟨legal.notLone, legal.free⟩, fun free => ⟨form, free.1, free.2⟩⟩
  rw [split]
  cases digit : startsWithDigit name.toList with
  | true =>
      have noneReserved : ∀ other ∈ "_" :: reservedWords, ¬ "field".toList <+: other.toList := by
        decide
      have noneDigit : ∀ other ∈ unreplacedNames, startsWithDigit other.toList = false := by decide
      rw [identifier_of_digit name digit]
      constructor
      · intro _ member
        rw [noneDigit name member] at digit
        cases digit
      · intro _ member
        apply noneReserved _ member
        rw [String.toList_append]
        exact List.prefix_append _ _
  | false =>
      rw [identifier_of_not_digit name digit]
      by_cases isType : name = "type"
      · rw [if_pos isType, isType]
        decide
      · rw [if_neg isType, unreplacedNames, List.mem_cons, List.mem_cons,
          List.mem_erase_of_ne isType]

/-- All identifiers in the struct of a built record have the form of one. The mapping leaves it at
that for the lone underscore and for reserved words, `type` aside, and so such names stay what they
are. -/
theorem build_identifiers_legal_iff (source : RecordSource) (record : Record)
    (built : source.build = .ok record) :
    (∀ member ∈ record.members, HasIdentifierForm (fieldIdentifier member.name) ∧
      (IsIdentifier (fieldIdentifier member.name) ↔ snakeCase member.name ∉ unreplacedNames)) ∧
    ∀ word, .packed word ∈ record.members → ∀ flag ∈ word.flags,
      HasIdentifierForm (identifier flag.name) ∧
        (IsIdentifier (identifier flag.name) ↔ flag.name ∉ unreplacedNames) := by
  have wellFormed := build_wellFormed source record built
  constructor
  · intro member inside
    have word := isWord_snakeCase member.name (wellFormed.names member inside)
    exact ⟨hasIdentifierForm_identifier _ word, isIdentifier_identifier_iff _ word⟩
  · intro packed inside flag flagInside
    have field : flag ∈ record.fields := List.mem_flatMap.mpr ⟨.packed packed, inside, flagInside⟩
    have word := wellFormed.fieldNames flag field
    exact ⟨hasIdentifierForm_identifier _ word, isIdentifier_identifier_iff _ word⟩

theorem build_identifiers_legal_awkward :
    awkwardSource.build = .ok awkwardRecord ∧
      IsIdentifier (fieldIdentifier "Type") ∧ ¬ IsIdentifier (fieldIdentifier "Loop") ∧
      IsIdentifier (identifier "Match") ∧ ¬ IsIdentifier (identifier "Self") := by
  have legal := build_identifiers_legal_iff awkwardSource awkwardRecord build_awkward
  have word : Member.packed (.ofRun 0 .u8 awkwardFlags) ∈ awkwardRecord.members := by
    simp [awkwardRecord]
  have field := fun member inside => (legal.1 member inside).2
  have flag := fun flag inside => (legal.2 _ word flag inside).2
  refine ⟨build_awkward, ?_, ?_, ?_, ?_⟩
  · exact (field (.plain ⟨"Type", .scalar .u8⟩) (by simp [awkwardRecord])).mpr (by decide +kernel)
  · exact fun fits => (field (.plain ⟨"Loop", .scalar .float⟩) (by simp [awkwardRecord])).mp fits
      (by decide +kernel)
  · exact (flag ⟨"Match", .flag .u8 1⟩ (by decide)).mpr (by decide +kernel)
  · exact fun fits => (flag ⟨"Self", .flag .u8 1⟩ (by decide)).mp fits (by decide +kernel)

theorem build_identifiers_legal_fails : ∃ record,
    RecordSource.build ⟨"Words", ["u8 fn"]⟩ = .ok record ∧
      ∃ member ∈ record.members, ¬ IsIdentifier (fieldIdentifier member.name) := by
  refine ⟨⟨"Words", [.plain ⟨"fn", .scalar .u8⟩]⟩, by decide +kernel, .plain ⟨"fn", .scalar .u8⟩,
    List.mem_singleton.mpr rfl, ?_⟩
  intro fits
  have same : fieldIdentifier "fn" = "fn" := by decide +kernel
  apply fits.free
  change fieldIdentifier "fn" ∈ reservedWords
  rw [same]
  decide

end BinaryRecord
