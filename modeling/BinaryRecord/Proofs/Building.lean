import BinaryRecord.Proofs.Packing
import BinaryRecord.Proofs.Renaming
import BinaryRecord.Record.Build
import Mathlib.Data.List.Forall2

/-! The passes that a record goes through, each said as a relation between what it takes and what it
makes. Main statements: `build_eq_ok_iff` and `members_settle`. -/

namespace BinaryRecord

def Renames (name final : String) : Prop := final = name ∨ ∃ number, final = numbered name number

structure Field.Settles (field final : Field) : Prop where
  shape : final.shape = field.shape
  name : Renames field.name final.name

inductive Member.Settles : Member → Member → Prop
  | plain {field final : Field} (settles : field.Settles final) :
      Settles (.plain field) (.plain final)
  | packed {word : FlagWord} {name : String} (renames : Renames word.name name) :
      Settles (.packed word) (.packed { word with name, flags := distinct word.flags })

section Relations

variable {α β : Type} {R : α → β → Prop} {items : List α} {finals : List β}

theorem exists_final_of_mem (related : List.Forall₂ R items finals) (item : α)
    (member : item ∈ items) : ∃ final ∈ finals, R item final := by
  induction related with
  | nil => cases member
  | @cons first firstFinal items finals isRelated _ ih =>
      rcases List.mem_cons.mp member with rfl | later
      · exact ⟨firstFinal, by simp, isRelated⟩
      · rcases ih later with ⟨final, inside, finalRelated⟩
        exact ⟨final, List.mem_cons_of_mem _ inside, finalRelated⟩

theorem exists_item_of_mem (related : List.Forall₂ R items finals) (final : β)
    (member : final ∈ finals) : ∃ item ∈ items, R item final :=
  exists_final_of_mem (R := flip R) related.flip final member

theorem exists_final_of_getElem? (related : List.Forall₂ R items finals) (place : Nat) (item : α)
    (itemAt : items[place]? = some item) : ∃ final, finals[place]? = some final ∧ R item final := by
  rcases List.getElem?_eq_some_iff.mp itemAt with ⟨itemBound, rfl⟩
  have finalBound : place < finals.length := related.length_eq ▸ itemBound
  exact ⟨finals[place], List.getElem?_eq_getElem finalBound, related.get itemBound finalBound⟩

theorem exists_item_of_getElem? (related : List.Forall₂ R items finals) (place : Nat) (final : β)
    (finalAt : finals[place]? = some final) : ∃ item, items[place]? = some item ∧ R item final :=
  exists_final_of_getElem? (R := flip R) related.flip place final finalAt

theorem forall₂_of_append (front back : List α) (related : List.Forall₂ R (front ++ back) finals) :
    List.Forall₂ R front (finals.take front.length) ∧
      List.Forall₂ R back (finals.drop front.length) := by
  have taken := List.forall₂_take front.length related
  have dropped := List.forall₂_drop front.length related
  rw [List.take_left] at taken
  rw [List.drop_left] at dropped
  exact ⟨taken, dropped⟩

end Relations

theorem distinctFrom_renames (names seen : List String) (renamed : Nat) :
    List.Forall₂ Renames names (distinctFrom seen renamed names) := by
  induction names generalizing seen renamed with
  | nil => exact .nil
  | cons name names ih =>
      simp only [distinctFrom]
      split
      · exact .cons (.inr ⟨renamed, rfl⟩) (ih _ _)
      · exact .cons (.inl rfl) (ih _ _)

theorem zipWith_withName {α : Type} [HasName α] (items : List α) (names : List String)
    (renames : List.Forall₂ Renames (items.map nameOf) names) :
    List.Forall₂ (fun item final => ∃ name, Renames (nameOf item) name ∧ final = withName item name)
      items (items.zipWith withName names) := by
  induction items generalizing names with
  | nil => exact .nil
  | cons item items ih =>
      cases renames with
      | @cons _ name _ names first later => exact .cons ⟨name, first, rfl⟩ (ih names later)

theorem distinct_renames {α : Type} [HasName α] (items : List α) :
    List.Forall₂ (fun item final => ∃ name, Renames (nameOf item) name ∧ final = withName item name)
      items (distinct items) :=
  zipWith_withName items _ (distinctFrom_renames _ [] 0)

theorem flags_settle (flags : List Field) : List.Forall₂ Field.Settles flags (distinct flags) := by
  apply (distinct_renames flags).imp
  rintro flag _ ⟨name, renames, rfl⟩
  exact ⟨rfl, renames⟩

theorem members_settle (members : List Member) :
    List.Forall₂ Member.Settles members (distinctMembers members) := by
  rw [distinctMembers, List.forall₂_map_right_iff]
  apply (distinct_renames members).imp
  rintro member _ ⟨name, renames, rfl⟩
  cases member with
  | plain field => exact .plain ⟨rfl, renames⟩
  | packed word => exact .packed renames

theorem Member.Settles.fields {member final : Member} (settles : member.Settles final) :
    List.Forall₂ Field.Settles member.fields final.fields := by
  cases settles with
  | plain settles => exact .cons settles .nil
  | @packed word name renames => exact flags_settle word.flags

theorem flatten_settles (members finals : List Member)
    (settle : List.Forall₂ Member.Settles members finals) :
    List.Forall₂ Field.Settles (flatten members) (flatten finals) := by
  induction settle with
  | nil => exact .nil
  | cons settles _ ih => exact List.rel_append settles.fields ih

abbrev ReadAs (definitions : List String) (fields : List Field) : Prop :=
  List.Forall₂ (fun definition field => Field.read definition = .ok field) definitions fields

theorem readFieldsFrom_eq_ok_iff (definitions : List String) (index : Nat) (fields : List Field) :
    readFieldsFrom index definitions = .ok fields ↔ ReadAs definitions fields := by
  induction definitions generalizing index fields with
  | nil =>
      rw [ReadAs, List.forall₂_nil_left_iff]
      simp [readFieldsFrom, eq_comm]
  | cons definition definitions ih =>
      simp only [readFieldsFrom, ReadAs, List.forall₂_cons_left_iff]
      cases Field.read definition with
      | error fault => simp
      | ok field =>
          simp only [map_eq_ok_iff, ih, Except.ok.injEq]
          constructor
          · rintro ⟨later, read, rfl⟩
            exact ⟨field, later, rfl, read, rfl⟩
          · rintro ⟨_, later, rfl, read, rfl⟩
            exact ⟨later, read, rfl⟩

theorem readFields_eq_ok_iff (definitions : List String) (fields : List Field) :
    readFields definitions = .ok fields ↔ ReadAs definitions fields :=
  readFieldsFrom_eq_ok_iff definitions 0 fields

theorem RecordSource.build_eq_ok_iff (source : RecordSource) (record : Record) :
    source.build = .ok record ↔
      ∃ fields members, readFields source.definitions = .ok fields ∧ pack fields = .ok members ∧
        record = ⟨source.name, distinctMembers members⟩ := by
  simp only [RecordSource.build, buildMembers]
  cases readFields source.definitions with
  | error placed => simp [bind, Except.bind]
  | ok fields =>
      cases packed : pack fields with
      | error placed => simp [bind, Except.bind, packed]
      | ok members => simp [bind, Except.bind, pure, Except.pure, packed, eq_comm]

theorem RecordSource.build_eq_ok_iff_wellPacked (source : RecordSource) (record : Record) :
    source.build = .ok record ↔
      ∃ members, record = ⟨source.name, distinctMembers members⟩ ∧ WellPacked members ∧
        ReadAs source.definitions (flatten members) := by
  rw [source.build_eq_ok_iff]
  constructor
  · rintro ⟨fields, members, read, packed, built⟩
    rcases (pack_eq_ok_iff fields members).mp packed with ⟨wellPacked, rfl⟩
    exact ⟨members, built, wellPacked, (readFields_eq_ok_iff _ _).mp read⟩
  · rintro ⟨members, built, wellPacked, read⟩
    exact ⟨flatten members, members, (readFields_eq_ok_iff _ _).mpr read,
      pack_flatten members wellPacked, built⟩

/-- A word between two plain fields. One name is met twice among its flags, and its own name is
taken by the field before it. -/
def sampleSource : RecordSource :=
  ⟨"Sample", ["u32 bitfield0", "u8 on:1", "u8 On:1", "u8 c:2", "u8 d:1", "u8 e:8", "u8 f:1",
    "u8 g:1", "u8 h:1", "u16 last[3]"]⟩

def sampleFlags (second : String) : List Field :=
  [⟨"on", .flag .u8 1⟩, ⟨second, .flag .u8 1⟩, ⟨"c", .flag .u8 2⟩, ⟨"d", .flag .u8 1⟩,
    ⟨"e", .flag .u8 8⟩, ⟨"f", .flag .u8 1⟩, ⟨"g", .flag .u8 1⟩, ⟨"h", .flag .u8 1⟩]

def sampleRecord : Record :=
  ⟨"Sample", [.plain ⟨"bitfield0", .scalar .u32⟩,
    .packed ⟨"bitfield0_0", 0, .u8, sampleFlags "On_0"⟩, .plain ⟨"last", .array .u16 3⟩]⟩

theorem build_sample : sampleSource.build = .ok sampleRecord := by decide +kernel

end BinaryRecord
