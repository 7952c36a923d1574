import BinaryRecord.Command.Run
import Mathlib.Data.List.Nodup

namespace BinaryRecord

/-- The records that can be built, and why the others cannot be, in the order of their sources. -/
inductive Splits : List RecordSource → List Record → List Rejection → Prop
  | nil : Splits [] [] []
  | built {source : RecordSource} {record : Record} {sources : List RecordSource}
      {built : List Record} {rejected : List Rejection} (builds : source.build = .ok record)
      (later : Splits sources built rejected) :
      Splits (source :: sources) (record :: built) rejected
  | rejected {source : RecordSource} {rejection : Rejection} {sources : List RecordSource}
      {built : List Record} {rejected : List Rejection} (fails : source.build = .error rejection)
      (later : Splits sources built rejected) :
      Splits (source :: sources) built (rejection :: rejected)

theorem splits_sources (sources : List RecordSource) :
    Splits sources (builtRecords sources) (rejections sources) := by
  induction sources with
  | nil => exact .nil
  | cons source sources ih =>
      unfold builtRecords rejections at *
      cases builds : source.build with
      | ok record =>
          simp only [List.filterMap_cons, builds, Except.toOption]
          exact .built builds ih
      | error rejection =>
          simp only [List.filterMap_cons, builds, Except.toOption]
          exact .rejected builds ih

theorem Splits.unique {sources : List RecordSource} {built : List Record}
    {rejected : List Rejection} (splits : Splits sources built rejected) :
    built = builtRecords sources ∧ rejected = rejections sources := by
  unfold builtRecords rejections
  induction splits with
  | nil => exact ⟨rfl, rfl⟩
  | built builds _ ih =>
      obtain ⟨rfl, rfl⟩ := ih
      simp [builds, Except.toOption]
  | rejected fails _ ih =>
      obtain ⟨rfl, rfl⟩ := ih
      simp [fails, Except.toOption]

theorem Splits.length {sources : List RecordSource} {built : List Record}
    {rejected : List Rejection} (splits : Splits sources built rejected) :
    built.length + rejected.length = sources.length := by
  induction splits with
  | nil => rfl
  | built _ _ ih => simp only [List.length_cons]; omega
  | rejected _ _ ih => simp only [List.length_cons]; omega

theorem Splits.exists_rejected_iff {sources : List RecordSource} {built : List Record}
    {rejected : List Rejection} (splits : Splits sources built rejected) :
    rejected ≠ [] ↔ ∃ source ∈ sources, ∃ rejection, source.build = .error rejection := by
  induction splits with
  | nil => simp
  | built builds _ ih => simp [ih, builds]
  | rejected fails _ _ => simp [fails]

inductive Numeric.IsLabel : Numeric → String → Prop
  | u8 : IsLabel .u8 "U8"
  | u16 : IsLabel .u16 "U16"
  | u32 : IsLabel .u32 "U32"
  | u64 : IsLabel .u64 "U64"
  | i8 : IsLabel .i8 "I8"
  | i16 : IsLabel .i16 "I16"
  | i32 : IsLabel .i32 "I32"
  | i64 : IsLabel .i64 "I64"
  | float : IsLabel .float "Float"

inductive Fault.Reads : Fault → String → Prop
  | malformed : Reads .malformed "definition does not match the array, bitfield or scalar form"
  | unknownType (token : String) :
      Reads (.unknownType token) ("unknown type token `" ++ token ++ "`")
  | cannotBack (type : String) :
      Reads (.cannotBack type) ("type `" ++ type ++ "` cannot back a bitfield")
  | widthOutOfRange {backing : Numeric} {label : String} (isLabel : backing.IsLabel label)
      (bits most : Nat) :
      Reads (.widthOutOfRange backing bits most)
        ("bit width " ++ decimal bits ++ " out of range for " ++ label ++ " (1..=" ++
          decimal most ++ ")")
  | countTooSmall (count : Nat) :
      Reads (.countTooSmall count) ("array count " ++ decimal count ++ " must be at least 1")
  | unfinishedRun (members capacity : Nat) :
      Reads (.unfinishedRun members capacity)
        ("bitfield run ended after " ++ decimal members ++ " of " ++ decimal capacity ++
          " members")
  | mixedRun {expected found : Numeric} {label foundLabel : String}
      (isLabel : expected.IsLabel label) (isFoundLabel : found.IsLabel foundLabel) :
      Reads (.mixedRun expected found)
        ("bitfield run backed by " ++ label ++ " continues with " ++ foundLabel)

def Rejection.Reads (rejection : Rejection) (text : String) : Prop :=
  ∃ words, rejection.fault.Reads words ∧
    text = rejection.record ++ ": `" ++ rejection.definition ++ "`: " ++ words

theorem Numeric.isLabel_label (number : Numeric) : number.IsLabel number.label := by
  cases number <;> constructor

theorem Fault.reads_message (fault : Fault) : fault.Reads fault.message := by
  cases fault with
  | malformed => exact .malformed
  | unknownType token => exact .unknownType token
  | cannotBack type => exact .cannotBack type
  | widthOutOfRange backing bits most => exact .widthOutOfRange backing.isLabel_label bits most
  | countTooSmall count => exact .countTooSmall count
  | unfinishedRun members capacity => exact .unfinishedRun members capacity
  | mixedRun expected found => exact .mixedRun expected.isLabel_label found.isLabel_label

theorem Rejection.reads_message (rejection : Rejection) : rejection.Reads rejection.message :=
  ⟨_, rejection.fault.reads_message, rfl⟩

theorem record_of_rejection {source : RecordSource} {rejection : Rejection}
    (fails : source.build = .error rejection) : rejection.record = source.name := by
  unfold RecordSource.build at fails
  split at fails
  · cases Except.error.inj fails
    rfl
  · cases fails

def acceptedSources (sources : List RecordSource) : List RecordSource :=
  sources.filter fun source => source.name ∉ (rejections sources).map Rejection.record

section Accepted

variable (sources : List RecordSource) (apart : (sources.map RecordSource.name).Nodup)

include apart in
theorem rejected_name_iff (source : RecordSource) (member : source ∈ sources) :
    source.name ∈ (rejections sources).map Rejection.record ↔
      ∃ rejection, source.build = .error rejection := by
  rw [List.mem_map]
  constructor
  · intro named
    obtain ⟨rejection, rejected, sameName⟩ := named
    obtain ⟨other, otherMember, isRejection⟩ := List.mem_filterMap.mp rejected
    split at isRejection
    · next fails =>
      have names : other.name = source.name := (record_of_rejection fails).symm.trans
        ((congrArg Rejection.record (Option.some.inj isRejection)).trans sameName)
      cases List.inj_on_of_nodup_map apart otherMember member names
      exact ⟨_, fails⟩
    · cases isRejection
  · intro fails
    obtain ⟨rejection, fails⟩ := fails
    refine ⟨rejection, List.mem_filterMap.mpr ⟨source, member, ?_⟩, record_of_rejection fails⟩
    simp only [fails]

include apart in
theorem builtRecords_acceptedSources :
    builtRecords (acceptedSources sources) = builtRecords sources := by
  rw [builtRecords, acceptedSources, List.filterMap_filter]
  apply List.filterMap_congr
  intro source member
  have rejected := rejected_name_iff sources apart source member
  cases builds : source.build with
  | ok record => simp [rejected, builds]
  | error rejection => simp [rejected, builds, Except.toOption]

include apart in
theorem rejections_acceptedSources : rejections (acceptedSources sources) = [] := by
  rw [rejections, List.filterMap_eq_nil_iff]
  intro source member
  obtain ⟨member, accepted⟩ := List.mem_filter.mp member
  have rejected := rejected_name_iff sources apart source member
  cases builds : source.build with
  | ok record => rfl
  | error rejection => simp [rejected, builds] at accepted

end Accepted

end BinaryRecord
