import BinaryRecord.Proofs.Rejections

/-! The names and the declared widths of flags, and what they cannot change: anything outside of the
word that holds the flags. Main statement: `build_sameOutside`. -/

namespace BinaryRecord

/-- The same field, or flags of one backing. -/
def Field.SameOutside (field twin : Field) : Prop :=
  field = twin ∨ field.isFlag = true ∧ field.backing? = twin.backing?

instance (field twin : Field) : Decidable (field.SameOutside twin) :=
  inferInstanceAs (Decidable (_ ∨ _))

inductive Member.SameOutside : Member → Member → Prop
  | plain (field : Field) : SameOutside (.plain field) (.plain field)
  | packed {word twin : FlagWord} (name : word.name = twin.name)
      (ordinal : word.ordinal = twin.ordinal) (backing : word.backing = twin.backing)
      (count : word.flags.length = twin.flags.length) :
      SameOutside (.packed word) (.packed twin)

def SameOutside (definition twin : String) : Prop :=
  ∃ field twinField, Field.read definition = .ok field ∧ Field.read twin = .ok twinField ∧
    field.SameOutside twinField

instance (definition twin : String) : Decidable (SameOutside definition twin) :=
  match read : Field.read definition, twinRead : Field.read twin with
  | .ok field, .ok twinField =>
      decidable_of_iff (field.SameOutside twinField) (by simp [SameOutside, read, twinRead])
  | .error _, _ => .isFalse (by simp [SameOutside, read])
  | .ok _, .error _ => .isFalse (by simp [SameOutside, twinRead])

theorem Field.SameOutside.backing? {field twin : Field} (same : field.SameOutside twin) :
    field.backing? = twin.backing? := by
  rcases same with rfl | flags
  · rfl
  · exact flags.2

theorem Field.SameOutside.eq_of_plain {field twin : Field} (same : field.SameOutside twin)
    (noFlag : field.backing? = none) : field = twin := by
  rcases same with rfl | flags
  · rfl
  · have isFlag := flags.1
    rw [Field.isFlag, noFlag] at isFlag
    cases isFlag

theorem map_backing?_of_sameOutside (fields twins : List Field)
    (same : List.Forall₂ Field.SameOutside fields twins) :
    fields.map Field.backing? = twins.map Field.backing? := by
  induction same with
  | nil => rfl
  | cons same _ ih => rw [List.map_cons, List.map_cons, same.backing?, ih]

theorem exists_fields_of_sameOutside (definitions twins : List String)
    (same : List.Forall₂ SameOutside definitions twins) :
    ∃ fields twinFields, ReadAs definitions fields ∧ ReadAs twins twinFields ∧
      List.Forall₂ Field.SameOutside fields twinFields := by
  induction same with
  | nil => exact ⟨[], [], .nil, .nil, .nil⟩
  | cons same _ ih =>
      rcases same with ⟨field, twin, read, twinRead, same⟩
      rcases ih with ⟨fields, twins, later, twinsLater, laterSame⟩
      exact ⟨field :: fields, twin :: twins, .cons read later, .cons twinRead twinsLater,
        .cons same laterSame⟩

theorem wellPacked_twin (word : FlagWord) (twins : List Field)
    (packed : (Member.packed word).WellPacked)
    (same : List.Forall₂ Field.SameOutside word.flags twins) :
    (Member.packed { word with flags := twins }).WellPacked ∧
      (Member.packed word).SameOutside (.packed { word with flags := twins }) := by
  obtain ⟨named, wide, all⟩ := packed
  have count := same.length_eq
  refine ⟨⟨named, wide.trans (congrArg some count), ?_⟩, .packed rfl rfl rfl count⟩
  intro twin member
  obtain ⟨flag, inside, flagSame⟩ := exists_item_of_mem same twin member
  rw [← flagSame.backing?, all flag inside]

theorem exists_twins (ordinal : Nat) (members : List Member) (twins : List Field)
    (packed : WellPackedFrom ordinal members)
    (same : List.Forall₂ Field.SameOutside (flatten members) twins) :
    ∃ others, WellPackedFrom ordinal others ∧ flatten others = twins ∧
      List.Forall₂ Member.SameOutside members others := by
  induction members generalizing ordinal twins with
  | nil =>
      cases same with
      | nil => exact ⟨[], trivial, rfl, .nil⟩
  | cons first members ih =>
      rw [flatten_cons] at same
      cases first with
      | plain field =>
          cases same with
          | @cons _ twin _ twins same later =>
              obtain rfl : field = twin := same.eq_of_plain packed.1
              rcases ih ordinal twins packed.2 later with ⟨others, othersPacked, flat, outside⟩
              refine ⟨.plain field :: others, ⟨packed.1, othersPacked⟩, ?_, ?_⟩
              · exact congrArg (field :: ·) flat
              · exact .cons (.plain field) outside
      | packed word =>
          obtain ⟨own, isWord, packed⟩ := packed
          -- The twins of the flags are as many, so the next member starts at the same place.
          have cut := forall₂_of_append word.flags (flatten members) same
          obtain ⟨twin, twinOutside⟩ := wellPacked_twin word _ isWord cut.1
          rcases ih (ordinal + 1) _ packed cut.2 with ⟨others, othersPacked, flat, outside⟩
          refine ⟨.packed { word with flags := twins.take word.flags.length } :: others,
            ⟨own, twin, othersPacked⟩, ?_, .cons twinOutside outside⟩
          rw [flatten_cons, flat]
          exact List.take_append_drop word.flags.length twins

theorem map_nameOf_of_sameOutside (members others : List Member)
    (same : List.Forall₂ Member.SameOutside members others) :
    members.map nameOf = others.map nameOf := by
  induction same with
  | nil => rfl
  | cons same _ ih =>
      rw [List.map_cons, List.map_cons, ih]
      cases same with
      | plain => rfl
      | packed name => exact congrArg (· :: _) name

theorem zipWith_withName_sameOutside (members others : List Member) (names : List String)
    (same : List.Forall₂ Member.SameOutside members others) :
    List.Forall₂ Member.SameOutside (members.zipWith withName names)
      (others.zipWith withName names) := by
  induction same generalizing names with
  | nil => exact .nil
  | cons same _ ih =>
      cases names with
      | nil => exact .nil
      | cons name names =>
          refine .cons ?_ (ih names)
          cases same with
          | plain field => exact .plain _
          | packed _ ordinal backing count => exact .packed rfl ordinal backing count

theorem Member.SameOutside.distinctFlags {member other : Member}
    (same : member.SameOutside other) :
    member.distinctFlags.SameOutside other.distinctFlags := by
  cases same with
  | plain field => exact .plain field
  | @packed word twin name ordinal backing count =>
      refine .packed name ordinal backing ?_
      rw [distinct_length, distinct_length, count]

theorem distinctMembers_sameOutside (members others : List Member)
    (same : List.Forall₂ Member.SameOutside members others) :
    List.Forall₂ Member.SameOutside (distinctMembers members) (distinctMembers others) := by
  rw [distinctMembers, distinctMembers, List.forall₂_map_left_iff, List.forall₂_map_right_iff,
    distinct, distinct, map_nameOf_of_sameOutside members others same]
  apply (zipWith_withName_sameOutside members others _ same).imp
  intro member other memberSame
  exact memberSame.distinctFlags

theorem pack_sameOutside (fields twins : List Field)
    (same : List.Forall₂ Field.SameOutside fields twins) :
    (∃ placed, pack fields = .error placed ∧ pack twins = .error placed) ∨
      ∃ members others, WellPacked members ∧ flatten members = fields ∧
        WellPacked others ∧ flatten others = twins ∧
        List.Forall₂ Member.SameOutside members others := by
  cases packed : pack fields with
  | error placed =>
      -- Where packing fails is settled by the backings, and those are the same.
      have backings := map_backing?_of_sameOutside fields twins same
      have failures := failure?_packFrom fields twins backings 0 0 0 0
      rw [← failure?_eq_some_iff] at packed
      refine .inl ⟨placed, rfl, ?_⟩
      rw [← failure?_eq_some_iff]
      exact failures.trans (congrArg (Option.map _) packed)
  | ok members =>
      rcases pack_sound fields members packed with ⟨wellPacked, rfl⟩
      rcases exists_twins 0 members twins wellPacked same with ⟨others, twinsPacked, flat, outside⟩
      exact .inr ⟨members, others, wellPacked, rfl, twinsPacked, flat, outside⟩

/-- Records whose definitions differ at most in what they call their flags and how wide they declare
them are both refused, at the same place for the same fault, or are the same outside of words. -/
theorem build_sameOutside (first second : RecordSource)
    (same : List.Forall₂ SameOutside first.definitions second.definitions) :
    (∃ rejection other, first.build = .error rejection ∧ second.build = .error other ∧
      rejection.index = other.index ∧ rejection.fault = other.fault) ∨
    ∃ record other, first.build = .ok record ∧ second.build = .ok other ∧
      List.Forall₂ Member.SameOutside record.members other.members := by
  rcases exists_fields_of_sameOutside _ _ same with ⟨fields, twins, read, twinsRead, fieldsSame⟩
  rcases pack_sameOutside fields twins fieldsSame with ⟨placed, failed, twinsFailed⟩ | cut
  · have blamed := (buildMembers_eq_error_iff _ placed).mpr (.inr ⟨fields, read, failed⟩)
    have otherBlamed := (buildMembers_eq_error_iff _ placed).mpr
      (.inr ⟨twins, twinsRead, twinsFailed⟩)
    refine .inl ⟨placed.reject first.name first.definitions,
      placed.reject second.name second.definitions, ?_, ?_, rfl, rfl⟩
    · exact (first.build_eq_error_iff _).mpr ⟨placed, blamed, rfl⟩
    · exact (second.build_eq_error_iff _).mpr ⟨placed, otherBlamed, rfl⟩
  · rcases cut with ⟨members, others, packed, rfl, othersPacked, rfl, outside⟩
    refine .inr ⟨⟨first.name, distinctMembers members⟩, ⟨second.name, distinctMembers others⟩,
      ?_, ?_, distinctMembers_sameOutside members others outside⟩
    · exact (first.build_eq_ok_iff_wellPacked _).mpr ⟨members, rfl, packed, read⟩
    · exact (second.build_eq_ok_iff_wellPacked _).mpr ⟨others, rfl, othersPacked, twinsRead⟩

/-- The sample with other names, widths, blanks and default values at its flags. Three of the names
are now one name, and two are names of members. -/
def sampleTwin : RecordSource :=
  ⟨"Sample", ["u32 bitfield0", "dummy8  last : 8", "u8 LAST:1 = 0", "u8 last:2", "u8\td:1",
    "u8 e:1", "fixstr f:7", "u8 bitfield0:1", "u8 h:1", "u16 last[3]"]⟩

theorem build_sameOutside_sample :
    List.Forall₂ SameOutside sampleSource.definitions sampleTwin.definitions ∧
      sampleSource.build = .ok sampleRecord ∧
      ∃ other, sampleTwin.build = .ok other ∧
        List.Forall₂ Member.SameOutside sampleRecord.members other.members := by
  have pairs : ∀ pair ∈ sampleSource.definitions.zip sampleTwin.definitions,
      SameOutside pair.1 pair.2 := by
    decide +kernel
  have same : List.Forall₂ SameOutside sampleSource.definitions sampleTwin.definitions :=
    List.forall₂_iff_zip.mpr ⟨by decide, fun {first second} => pairs (first, second)⟩
  refine ⟨same, build_sample, ?_⟩
  rcases build_sameOutside sampleSource sampleTwin same with
    ⟨rejection, _, rejected, -⟩ | ⟨record, other, built, otherBuilt, outside⟩
  · rw [build_sample] at rejected
    cases rejected
  · rw [build_sample] at built
    cases built
    exact ⟨other, otherBuilt, outside⟩

end BinaryRecord
