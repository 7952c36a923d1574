import BinaryRecord.Proofs.Building

namespace BinaryRecord

structure Record.NamesApart (record : Record) : Prop where
  members : DistinctNames record.members
  flags : ∀ word, .packed word ∈ record.members → DistinctNames word.flags
  found : ∀ (place : Nat) (member : Member), record.members[place]? = some member →
    record.member? member.name = some member ∧
      record.members.findIdx? (fun other => other.name = member.name) = some place

theorem nameOf_distinctFlags (member : Member) : nameOf member.distinctFlags = nameOf member := by
  cases member <;> rfl

theorem distinctNames_distinctMembers_iff (members : List Member) :
    DistinctNames (distinctMembers members) ↔ ¬ Clashes (members.map Member.name) := by
  have sameNames : (distinctMembers members).map (fun member => snakeCase (nameOf member)) =
      (distinct members).map (fun member => snakeCase (nameOf member)) := by
    rw [distinctMembers, List.map_map]
    apply List.map_congr_left
    intro member _
    exact congrArg snakeCase (nameOf_distinctFlags member)
  rw [DistinctNames, sameNames]
  exact distinctNames_distinct_iff members

theorem distinctFlags_distinctMembers_iff (members : List Member) :
    (∀ word, .packed word ∈ distinctMembers members → DistinctNames word.flags) ↔
      ∀ word, .packed word ∈ members → ¬ Clashes (word.flags.map Field.name) := by
  have settle := members_settle members
  constructor
  · intro apart word member
    rcases exists_final_of_mem settle (.packed word) member with ⟨final, inside, settles⟩
    cases settles with
    | packed renames => exact (distinctNames_distinct_iff word.flags).mp (apart _ inside)
  · intro clean final member
    rcases exists_item_of_mem settle (.packed final) member with ⟨source, inside, settles⟩
    cases settles with
    | @packed word name renames =>
        exact (distinctNames_distinct_iff word.flags).mpr (clean word inside)

theorem findIdx?_of_distinctNames (members : List Member) (apart : DistinctNames members)
    (place : Nat) (member : Member) (memberAt : members[place]? = some member) :
    members.findIdx? (fun other => other.name = member.name) = some place := by
  rcases List.getElem?_eq_some_iff.mp memberAt with ⟨bound, rfl⟩
  rw [List.findIdx?_eq_some_iff_getElem]
  refine ⟨bound, by simp, ?_⟩
  intro earlier before same
  have earlierBound : earlier < members.length := Nat.lt_trans before bound
  have sameSnake : snakeCase (nameOf members[earlier]) = snakeCase (nameOf members[place]) :=
    congrArg snakeCase (of_decide_eq_true same)
  have atEarlier : (members.map fun item => snakeCase (nameOf item))[earlier]? =
      (members.map fun item => snakeCase (nameOf item))[place]? := by
    simp only [List.getElem?_map, List.getElem?_eq_getElem earlierBound,
      List.getElem?_eq_getElem bound, Option.map_some, sameSnake]
  have samePlace := (List.getElem?_inj (by simpa using earlierBound) apart).mp atEarlier
  omega

theorem find?_of_findIdx? (members : List Member) (name : String) (place : Nat) (member : Member)
    (memberAt : members[place]? = some member)
    (first : members.findIdx? (fun other => other.name = name) = some place) :
    members.find? (fun other => other.name = name) = some member := by
  rw [List.find?_eq_bind_findIdx?_getElem?, first]
  exact memberAt

theorem Record.namesApart_of_distinct (record : Record) (members : DistinctNames record.members)
    (flags : ∀ word, .packed word ∈ record.members → DistinctNames word.flags) :
    record.NamesApart := by
  refine ⟨members, flags, ?_⟩
  intro place member memberAt
  have first := findIdx?_of_distinctNames record.members members place member memberAt
  exact ⟨find?_of_findIdx? record.members member.name place member memberAt first, first⟩

/-- A built record tells its names apart exactly when, among the members as they were packed and
among the flags of each word, no replaced name takes the snake case of a name that stays. -/
theorem build_namesApart_iff (source : RecordSource) (record : Record)
    (built : source.build = .ok record) :
    ∃ fields members, readFields source.definitions = .ok fields ∧ pack fields = .ok members ∧
      (record.NamesApart ↔ ¬ Clashes (members.map Member.name) ∧
        ∀ word, .packed word ∈ members → ¬ Clashes (word.flags.map Field.name)) := by
  rcases (source.build_eq_ok_iff record).mp built with ⟨fields, members, read, packed, rfl⟩
  refine ⟨fields, members, read, packed, ?_⟩
  rw [← distinctNames_distinctMembers_iff, ← distinctFlags_distinctMembers_iff]
  constructor
  · intro apart
    exact ⟨apart.members, apart.flags⟩
  · intro distinct
    exact Record.namesApart_of_distinct _ distinct.1 distinct.2

theorem build_namesApart_sample :
    sampleSource.build = .ok sampleRecord ∧ sampleRecord.NamesApart := by
  rcases build_namesApart_iff sampleSource sampleRecord build_sample with
    ⟨fields, members, read, packed, apart⟩
  have packedIs : (readFields sampleSource.definitions).bind pack =
      .ok [.plain ⟨"bitfield0", .scalar .u32⟩, .packed (.ofRun 0 .u8 (sampleFlags "On")),
        .plain ⟨"last", .array .u16 3⟩] := by
    decide +kernel
  rw [read] at packedIs
  have membersAre := packed.symm.trans packedIs
  cases membersAre
  refine ⟨build_sample, apart.mpr ⟨by decide +kernel, ?_⟩⟩
  intro word member
  simp only [List.mem_cons, reduceCtorEq, Member.packed.injEq, List.not_mem_nil, or_false,
    false_or] at member
  subst member
  decide +kernel

/-- A replaced name is not compared with the names that stay, so it can meet one of them, and then
the first member of the name hides the other. -/
theorem build_namesApart_fails : ∃ record,
    RecordSource.build ⟨"Dup", ["u8 a", "u16 a", "u32 a_0"]⟩ = .ok record ∧
      record.members[2]? = some (.plain ⟨"a_0", .scalar .u32⟩) ∧
      record.member? "a_0" = some (.plain ⟨"a_0", .scalar .u16⟩) ∧ ¬ record.NamesApart := by
  refine ⟨⟨"Dup", [.plain ⟨"a", .scalar .u8⟩, .plain ⟨"a_0", .scalar .u16⟩,
    .plain ⟨"a_0", .scalar .u32⟩]⟩, by decide +kernel, rfl, rfl, ?_⟩
  intro apart
  exact absurd apart.members (by decide +kernel)

end BinaryRecord
