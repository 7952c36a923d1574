import BinaryRecord.Proofs.RecordFields
import BinaryRecord.Proofs.Rejections

namespace BinaryRecord

theorem failure?_readFieldsFrom (definitions : List String) (index offset : Nat) :
    failure? (readFieldsFrom (index + offset) definitions) =
      (failure? (readFieldsFrom index definitions)).map (PlacedFault.shift offset) := by
  induction definitions generalizing index with
  | nil => rfl
  | cons definition definitions ih =>
      simp only [readFieldsFrom]
      cases Field.read definition with
      | error fault => rfl
      | ok field => rw [failure?_map, failure?_map, Nat.add_right_comm, ih]

theorem readFieldsFrom_append (front back : List String) (fields : List Field) (index : Nat)
    (read : ReadAs front fields) :
    readFieldsFrom index (front ++ back) =
      (readFieldsFrom (index + front.length) back).map (fields ++ ·) := by
  induction read generalizing index with
  | nil =>
      change readFieldsFrom index back = (readFieldsFrom index back).map id
      cases readFieldsFrom index back <;> rfl
  | @cons definition field front fields readable _ ih =>
      simp only [List.cons_append, readFieldsFrom, readable]
      rw [ih, map_append_map_cons, List.length_cons, Nat.add_assoc, Nat.add_comm 1]
      rfl

section Front

variable (front back : List String) (members : List Member) (packed : WellPacked members)
  (read : ReadAs front (flatten members))

include packed read in
theorem failure?_buildMembers_append :
    failure? (buildMembers (front ++ back)) =
      (failure? (buildMembers back)).map (PlacedFault.shift front.length) := by
  have whole := readFieldsFrom_append front back (flatten members) 0 read
  rw [Nat.zero_add] at whole
  cases alone : readFields back with
  | error placed =>
      -- All of the front can be read, so reading stops in the back.
      have moved := failure?_readFieldsFrom back 0 front.length
      rw [Nat.zero_add] at moved
      have failed : readFields (front ++ back) = .error (placed.shift front.length) := by
        rw [← failure?_eq_some_iff, readFields, whole, failure?_map, moved]
        exact congrArg (fun result => (failure? result).map _) alone
      rw [buildMembers_of_unreadable _ _ failed, buildMembers_of_unreadable _ _ alone]
      rfl
  | ok later =>
      have laterRead := (readFields_eq_ok_iff back later).mp alone
      have moved := (readFieldsFrom_eq_ok_iff back front.length later).mpr laterRead
      have readable : readFields (front ++ back) = .ok (flatten members ++ later) := by
        rw [readFields, whole, moved]
        rfl
      rw [failure?_buildMembers _ _ readable, failure?_buildMembers _ _ alone,
        failure?_pack_append members later packed, read.length_eq]

include packed read in
theorem buildMembers_append_eq_error_iff (placed : PlacedFault) :
    buildMembers (front ++ back) = .error placed ↔
      ∃ alone, buildMembers back = .error alone ∧ alone.shift front.length = placed := by
  rw [← failure?_eq_some_iff, failure?_buildMembers_append front back members packed read,
    Option.map_eq_some_iff]
  simp only [failure?_eq_some_iff]

include packed read in
theorem exists_more_of_pack_append (fields : List Field) (all : List Member)
    (allRead : readFields (front ++ back) = .ok fields) (allPacked : pack fields = .ok all) :
    ∃ more, all = members ++ more := by
  rw [readFields, readFieldsFrom_append front back (flatten members) 0 read] at allRead
  rcases (map_eq_ok_iff _ _ _).mp allRead with ⟨later, -, rfl⟩
  rw [pack, packFrom_flatten_append 0 0 members later packed] at allPacked
  rcases (map_eq_ok_iff _ _ _).mp allPacked with ⟨more, -, rfl⟩
  exact ⟨more, rfl⟩

end Front

theorem distinctMembers_prefix_append (members more : List Member) :
    distinctMembers members <+: distinctMembers (members ++ more) :=
  (distinct_prefix_append members more).map Member.distinctFlags

theorem reject_shift_append (name : String) (front back : List String) (placed : PlacedFault) :
    (placed.shift front.length).reject name (front ++ back) =
      { placed.reject name back with index := placed.index + front.length } := by
  have text : (front ++ back).getD (placed.index + front.length) "" =
      back.getD placed.index "" := by
    rw [List.getD_eq_getElem?_getD, List.getD_eq_getElem?_getD,
      List.getElem?_append_right (Nat.le_add_left _ _), Nat.add_sub_cancel]
  simp only [PlacedFault.reject, PlacedFault.shift, text]

/-- Where a record can be built, definitions added at its end are judged as if they stood alone, and
the members before them stay as they are. -/
theorem build_append_stable (name : String) (front back : List String) (record : Record)
    (built : RecordSource.build ⟨name, front⟩ = .ok record) :
    (∀ rejection, RecordSource.build ⟨name, front ++ back⟩ = .error rejection ↔
      ∃ alone, RecordSource.build ⟨name, back⟩ = .error alone ∧
        rejection = { alone with index := alone.index + front.length }) ∧
    ∀ longer, RecordSource.build ⟨name, front ++ back⟩ = .ok longer →
      record.members <+: longer.members := by
  rcases RecordSource.exists_of_build _ record built with ⟨members, rfl, packed, read⟩
  constructor
  · intro rejection
    constructor
    · intro rejected
      rcases (RecordSource.build_eq_error_iff _ rejection).mp rejected with ⟨placed, failed, rfl⟩
      rcases (buildMembers_append_eq_error_iff front back members packed read placed).mp failed with
        ⟨alone, aloneFailed, rfl⟩
      refine ⟨alone.reject name back, ?_, reject_shift_append name front back alone⟩
      exact (RecordSource.build_eq_error_iff _ _).mpr ⟨alone, aloneFailed, rfl⟩
    · rintro ⟨_, rejected, rfl⟩
      rcases (RecordSource.build_eq_error_iff _ _).mp rejected with ⟨alone, aloneFailed, rfl⟩
      have failed := (buildMembers_append_eq_error_iff front back members packed read _).mpr
        ⟨alone, aloneFailed, rfl⟩
      exact (RecordSource.build_eq_error_iff _ _).mpr
        ⟨_, failed, (reject_shift_append name front back alone).symm⟩
  · intro longer builtLonger
    rcases (RecordSource.build_eq_ok_iff _ longer).mp builtLonger with
      ⟨fields, all, allRead, allPacked, rfl⟩
    rcases exists_more_of_pack_append front back members packed read fields all allRead
      allPacked with ⟨more, rfl⟩
    exact distinctMembers_prefix_append members more

theorem build_append_stable_sample :
    sampleSource.build = .ok sampleRecord ∧
      RecordSource.build ⟨"Sample", sampleSource.definitions ++ ["u8 Last", "s16 more:1"]⟩ =
        .error ⟨"Sample", 11, "s16 more:1", .unfinishedRun 1 16⟩ ∧
      ∃ longer, RecordSource.build ⟨"Sample", sampleSource.definitions ++ ["u8 Last"]⟩ =
          .ok longer ∧
        sampleRecord.members <+: longer.members := by
  have broken := build_append_stable "Sample" sampleSource.definitions ["u8 Last", "s16 more:1"]
    sampleRecord build_sample
  have whole := build_append_stable "Sample" sampleSource.definitions ["u8 Last"] sampleRecord
    build_sample
  have longerBuilt :
      RecordSource.build ⟨"Sample", sampleSource.definitions ++ ["u8 Last"]⟩ =
        .ok ⟨"Sample", sampleRecord.members ++ [.plain ⟨"Last_1", .scalar .u8⟩]⟩ := by
    decide +kernel
  refine ⟨build_sample, ?_, _, longerBuilt, whole.2 _ longerBuilt⟩
  apply (broken.1 _).mpr
  exact ⟨⟨"Sample", 1, "s16 more:1", .unfinishedRun 1 16⟩, by decide +kernel, rfl⟩

end BinaryRecord
