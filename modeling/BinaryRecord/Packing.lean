import BinaryRecord.Record

/-! Packing runs of flags into words. A word is full when it holds as many flags as its backing
number has bits; the widths that flags declare play no part. -/

namespace BinaryRecord

def leadingRun (backing : Numeric) (width : Nat) (fields : List Field) : List Field :=
  (fields.take width).takeWhile fun field => field.backing? = some backing

/-- A run that falls short either meets a flag with another backing, which is blamed, or just ends,
and then its first flag is blamed. -/
def runFault (index : Nat) (backing : Numeric) (width length : Nat) (next : Option Field) :
    PlacedFault :=
  match next.bind Field.backing? with
  | some found => ⟨index + length, .mixedRun backing found⟩
  | none => ⟨index, .unfinishedRun length width⟩

def packFrom (index ordinal : Nat) (fields : List Field) : Except PlacedFault (List Member) :=
  match fields with
  | [] => .ok []
  | field :: rest =>
      match field.backing? with
      | none => (packFrom (index + 1) ordinal rest).map (.plain field :: ·)
      | some backing =>
          match backing.bitWidth? with
          | none => .error ⟨index, .cannotBack backing.label⟩
          | some width =>
              let run := leadingRun backing width (field :: rest)
              if run.length = width then
                (packFrom (index + width) (ordinal + 1) (rest.drop (width - 1))).map
                  (.packed (.ofRun ordinal backing run) :: ·)
              else
                .error (runFault index backing width run.length (field :: rest)[run.length]?)
termination_by fields.length
decreasing_by
  · simp
  · simp only [List.length_drop, List.length_cons]
    omega

def pack (fields : List Field) : Except PlacedFault (List Member) := packFrom 0 0 fields

/-- What packing promises of a member, whatever stands around it: a word is named for its ordinal,
and it is full. -/
def Member.WellPacked : Member → Prop
  | .plain field => field.backing? = none
  | .packed word =>
      word.name = "bitfield" ++ decimal word.ordinal ∧
        word.backing.bitWidth? = some word.flags.length ∧
        ∀ flag ∈ word.flags, flag.backing? = some word.backing

def WellPackedFrom (ordinal : Nat) : List Member → Prop
  | [] => True
  | .plain field :: members => (Member.plain field).WellPacked ∧ WellPackedFrom ordinal members
  | .packed word :: members =>
      word.ordinal = ordinal ∧ (Member.packed word).WellPacked ∧
        WellPackedFrom (ordinal + 1) members

def WellPacked (members : List Member) : Prop := WellPackedFrom 0 members

section Steps

variable (index ordinal : Nat) (field : Field) (rest : List Field)

theorem packFrom_plain (noFlag : field.backing? = none) :
    packFrom index ordinal (field :: rest) =
      (packFrom (index + 1) ordinal rest).map (.plain field :: ·) := by
  rw [packFrom, noFlag]

theorem packFrom_noWidth (backing : Numeric) (flag : field.backing? = some backing)
    (noWidth : backing.bitWidth? = none) :
    packFrom index ordinal (field :: rest) = .error ⟨index, .cannotBack backing.label⟩ := by
  rw [packFrom, flag]
  simp only [noWidth]

theorem packFrom_full (backing : Numeric) (width : Nat) (flag : field.backing? = some backing)
    (wide : backing.bitWidth? = some width)
    (full : (leadingRun backing width (field :: rest)).length = width) :
    packFrom index ordinal (field :: rest) =
      (packFrom (index + width) (ordinal + 1) (rest.drop (width - 1))).map
        (.packed (.ofRun ordinal backing (leadingRun backing width (field :: rest))) :: ·) := by
  rw [packFrom, flag]
  simp only [wide, if_pos full]

theorem packFrom_short (backing : Numeric) (width : Nat) (flag : field.backing? = some backing)
    (wide : backing.bitWidth? = some width)
    (short : (leadingRun backing width (field :: rest)).length ≠ width) :
    packFrom index ordinal (field :: rest) =
      .error (runFault index backing width (leadingRun backing width (field :: rest)).length
        (field :: rest)[(leadingRun backing width (field :: rest)).length]?) := by
  rw [packFrom, flag]
  simp only [wide, if_neg short]

end Steps

theorem runFault_shift (index offset : Nat) (backing : Numeric) (width length : Nat)
    (next : Option Field) :
    runFault (index + offset) backing width length next =
      (runFault index backing width length next).shift offset := by
  unfold runFault
  cases next.bind Field.backing? with
  | none => rfl
  | some found => simp [PlacedFault.shift, Nat.add_right_comm]

theorem leadingRun_length_le (backing : Numeric) (width : Nat) (fields : List Field) :
    (leadingRun backing width fields).length ≤ width := by
  have taken : (leadingRun backing width fields).length ≤ (fields.take width).length :=
    (List.takeWhile_prefix _).length_le
  have bound := List.length_take_le width fields
  exact Nat.le_trans taken bound

theorem backing?_of_mem_leadingRun (backing : Numeric) (width : Nat) (fields : List Field)
    (field : Field) (member : field ∈ leadingRun backing width fields) :
    field.backing? = some backing := by
  have holds := List.all_eq_true.mp List.all_takeWhile field member
  simpa using holds

end BinaryRecord
