import BinaryRecord.Proofs.Packing

namespace BinaryRecord

structure IsPacking (members : List Member) : Prop where
  each : ∀ member ∈ members, member.WellPacked
  ordinals : (members.filterMap Member.packed?).map FlagWord.ordinal =
    List.range (members.filterMap Member.packed?).length

/-- The backings of what one member holds: no flag, or as many flags as their backing has bits. -/
inductive IsPiece : List (Option Numeric) → Prop
  | plain : IsPiece [none]
  | word {backing : Numeric} {width : Nat} (wide : backing.bitWidth? = some width) :
      IsPiece (List.replicate width (some backing))

structure IsCut (backings : List (Option Numeric)) (pieces : List (List (Option Numeric))) :
    Prop where
  each : ∀ piece ∈ pieces, IsPiece piece
  whole : pieces.flatten = backings

def Member.backings (member : Member) : List (Option Numeric) := member.fields.map Field.backing?

theorem wellPackedFrom_of_ordinals (ordinal : Nat) (members : List Member)
    (each : ∀ member ∈ members, member.WellPacked)
    (ordinals : (members.filterMap Member.packed?).map FlagWord.ordinal =
      List.range' ordinal (members.filterMap Member.packed?).length) :
    WellPackedFrom ordinal members := by
  induction members generalizing ordinal with
  | nil => trivial
  | cons first members ih =>
      rw [List.forall_mem_cons] at each
      cases first with
      | plain field => exact ⟨each.1, ih ordinal each.2 ordinals⟩
      | packed word =>
          simp only [List.filterMap_cons, Member.packed?, List.map_cons, List.length_cons,
            List.range'_succ, List.cons.injEq] at ordinals
          exact ⟨ordinals.1, each.1, ih (ordinal + 1) each.2 ordinals.2⟩

theorem wellPacked_iff_isPacking (members : List Member) :
    WellPacked members ↔ IsPacking members := by
  constructor
  · intro packed
    have ordinals := WellPackedFrom.ordinals 0 members packed
    rw [← List.range_eq_range'] at ordinals
    exact ⟨packed.member, ordinals⟩
  · intro packing
    have ordinals := packing.ordinals
    rw [List.range_eq_range'] at ordinals
    exact wellPackedFrom_of_ordinals 0 members packing.each ordinals

theorem isPiece_backings (member : Member) (packed : member.WellPacked) :
    IsPiece member.backings := by
  cases member with
  | plain field =>
      have noFlag : (Member.plain field).backings = [none] := congrArg (fun b => [b]) packed
      rw [noFlag]
      exact .plain
  | packed word =>
      rcases packed with ⟨-, wide, all⟩
      have run : (Member.packed word).backings =
          List.replicate word.flags.length (some word.backing) :=
        List.map_eq_replicate_iff.mpr all
      rw [run]
      exact .word wide

theorem map_backing?_flatten (members : List Member) :
    (flatten members).map Field.backing? = (members.map Member.backings).flatten := by
  rw [flatten, List.map_flatMap, ← List.flatMap_def]
  rfl

theorem isCut_flatten (members : List Member) (packed : WellPacked members) :
    IsCut ((flatten members).map Field.backing?) (members.map Member.backings) := by
  refine ⟨?_, (map_backing?_flatten members).symm⟩
  intro piece inside
  rcases List.mem_map.mp inside with ⟨member, memberInside, rfl⟩
  exact isPiece_backings member (packed.member member memberInside)

theorem exists_members_of_isCut (ordinal : Nat) (fields : List Field)
    (pieces : List (List (Option Numeric))) (cut : IsCut (fields.map Field.backing?) pieces) :
    ∃ members, WellPackedFrom ordinal members ∧ flatten members = fields ∧
      members.map Member.backings = pieces := by
  induction pieces generalizing ordinal fields with
  | nil =>
      have empty : fields = [] := List.map_eq_nil_iff.mp cut.whole.symm
      exact ⟨[], trivial, empty.symm, rfl⟩
  | cons piece pieces ih =>
      rcases cut with ⟨each, whole⟩
      rw [List.forall_mem_cons] at each
      rw [List.flatten_cons] at whole
      rcases List.append_eq_map_iff.mp whole with ⟨front, back, rfl, frontWhole, backWhole⟩
      have later (next : Nat) := ih next back ⟨each.2, backWhole.symm⟩
      cases each.1 with
      | plain =>
          rcases List.map_eq_singleton_iff.mp frontWhole with ⟨field, rfl, noFlag⟩
          rcases later ordinal with ⟨members, packed, rfl, rfl⟩
          refine ⟨.plain field :: members, ⟨noFlag, packed⟩, rfl, ?_⟩
          exact congrArg (fun found => [found] :: members.map Member.backings) noFlag
      | @word backing width wide =>
          rcases later (ordinal + 1) with ⟨members, packed, rfl, rfl⟩
          have count : front.length = width := by
            simpa using congrArg List.length frontWhole
          subst count
          have all := List.map_eq_replicate_iff.mp frontWhole
          refine ⟨.packed (.ofRun ordinal backing front) :: members,
            ⟨rfl, ⟨rfl, wide, all⟩, packed⟩, rfl, ?_⟩
          exact congrArg (· :: members.map Member.backings) frontWhole

theorem isCut_iff (fields : List Field) (pieces : List (List (Option Numeric))) :
    IsCut (fields.map Field.backing?) pieces ↔
      ∃ members, pack fields = .ok members ∧ members.map Member.backings = pieces := by
  constructor
  · intro cut
    rcases exists_members_of_isCut 0 fields pieces cut with ⟨members, packed, flat, cuts⟩
    exact ⟨members, (pack_eq_ok_iff fields members).mpr ⟨packed, flat⟩, cuts⟩
  · rintro ⟨members, packs, rfl⟩
    rcases (pack_eq_ok_iff fields members).mp packs with ⟨packed, rfl⟩
    exact isCut_flatten members packed

/-- A list of fields can be packed exactly where its backings can be cut into pieces, and then it
can be cut in one way only. The widths that flags declare, and all names, have no part in it. -/
theorem pack_inverts_flatten (fields : List Field) :
    (∀ members, pack fields = .ok members ↔ IsPacking members ∧ flatten members = fields) ∧
      (∀ pieces, IsCut (fields.map Field.backing?) pieces ↔
        ∃ members, pack fields = .ok members ∧ members.map Member.backings = pieces) ∧
      ((∃ members, pack fields = .ok members) ↔
        ∃! pieces, IsCut (fields.map Field.backing?) pieces) := by
  refine ⟨?inverse, isCut_iff fields, ?cut⟩
  case inverse =>
    intro members
    rw [pack_eq_ok_iff, wellPacked_iff_isPacking]
  case cut =>
    constructor
    · rintro ⟨members, packs⟩
      refine ⟨members.map Member.backings, (isCut_iff fields _).mpr ⟨members, packs, rfl⟩, ?_⟩
      intro pieces cut
      rcases (isCut_iff fields pieces).mp cut with ⟨others, othersPack, rfl⟩
      rw [packs] at othersPack
      cases othersPack
      rfl
    · rintro ⟨pieces, cut, -⟩
      rcases (isCut_iff fields pieces).mp cut with ⟨members, packs, -⟩
      exact ⟨members, packs⟩

end BinaryRecord
