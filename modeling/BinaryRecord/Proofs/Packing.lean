import BinaryRecord.Packing
import Mathlib.Data.List.Infix
import Mathlib.Data.List.TakeWhile

/-! What packing makes of a list of fields. Main statements: `pack_eq_ok_iff`, it cuts the fields
into well packed members, and `packFrom_flatten_append`, where such members end it starts afresh. -/

namespace BinaryRecord

theorem map_eq_ok_iff {ε α β : Type} (result : Except ε α) (f : α → β) (value : β) :
    result.map f = .ok value ↔ ∃ inner, result = .ok inner ∧ f inner = value := by
  cases result with
  | error failure => simp [Except.map]
  | ok inner => simp [Except.map]

theorem leadingRun_append_drop (backing : Numeric) (width : Nat) (fields : List Field) :
    leadingRun backing width fields ++ fields.drop (leadingRun backing width fields).length =
      fields := by
  have isPrefix : leadingRun backing width fields <+: fields :=
    (List.takeWhile_prefix _).trans (List.take_prefix width fields)
  exact (List.prefix_append_drop isPrefix).symm

theorem leadingRun_append_rest (backing : Numeric) (width : Nat) (field : Field) (rest : List Field)
    (wide : backing.bitWidth? = some width)
    (full : (leadingRun backing width (field :: rest)).length = width) :
    leadingRun backing width (field :: rest) ++ rest.drop (width - 1) = field :: rest := by
  have positive := backing.bitWidth?_pos width wide
  obtain ⟨count, rfl⟩ : ∃ count, width = count + 1 := ⟨width - 1, by omega⟩
  have parts := leadingRun_append_drop backing (count + 1) (field :: rest)
  rwa [full, List.drop_succ_cons] at parts

/-- The invariant of packing, over the fields still to pack and the ordinal of the next word. -/
theorem packFrom_sound (index ordinal : Nat) (fields : List Field) (members : List Member)
    (packed : packFrom index ordinal fields = .ok members) :
    WellPackedFrom ordinal members ∧ flatten members = fields := by
  fun_induction packFrom index ordinal fields generalizing members with
  | case1 index ordinal =>
      simp only [Except.ok.injEq] at packed
      subst packed
      exact ⟨trivial, rfl⟩
  | case2 index ordinal field rest noFlag ih =>
      rcases (map_eq_ok_iff _ _ _).mp packed with ⟨later, laterPacked, rfl⟩
      rcases ih later laterPacked with ⟨wellPacked, flat⟩
      exact ⟨⟨noFlag, wellPacked⟩, congrArg (field :: ·) flat⟩
  | case3 index ordinal field rest backing flag noWidth => exact absurd packed (by simp)
  | case4 index ordinal field rest backing flag width wide run full ih =>
      rcases (map_eq_ok_iff _ _ _).mp packed with ⟨later, laterPacked, rfl⟩
      rcases ih later laterPacked with ⟨wellPacked, flat⟩
      refine ⟨⟨rfl, ⟨rfl, wide.trans (congrArg some full.symm), ?_⟩, wellPacked⟩, ?_⟩
      · exact backing?_of_mem_leadingRun backing width (field :: rest)
      · calc
          flatten (.packed (.ofRun ordinal backing run) :: later) = run ++ flatten later := rfl
          _ = run ++ rest.drop (width - 1) := by rw [flat]
          _ = field :: rest := leadingRun_append_rest backing width field rest wide full
  | case5 index ordinal field rest backing flag width wide run short =>
      exact absurd packed (by simp)

theorem pack_sound (fields : List Field) (members : List Member)
    (packed : pack fields = .ok members) : WellPacked members ∧ flatten members = fields :=
  packFrom_sound 0 0 fields members packed

theorem leadingRun_zero (backing : Numeric) (fields : List Field) :
    leadingRun backing 0 fields = [] := by
  rw [leadingRun, List.take_zero, List.takeWhile_nil]

theorem leadingRun_append (backing : Numeric) (width : Nat) (flags rest : List Field)
    (all : ∀ flag ∈ flags, flag.backing? = some backing) (fits : flags.length ≤ width) :
    leadingRun backing width (flags ++ rest) =
      flags ++ leadingRun backing (width - flags.length) rest := by
  rw [leadingRun, List.take_append, List.take_of_length_le fits,
    List.takeWhile_append_of_pos (by simpa using all)]
  rfl

theorem packFrom_word (index ordinal : Nat) (backing : Numeric) (flags rest : List Field)
    (wide : backing.bitWidth? = some flags.length)
    (all : ∀ flag ∈ flags, flag.backing? = some backing) :
    packFrom index ordinal (flags ++ rest) =
      (packFrom (index + flags.length) (ordinal + 1) rest).map
        (.packed (.ofRun ordinal backing flags) :: ·) := by
  have positive := backing.bitWidth?_pos flags.length wide
  have run := leadingRun_append backing flags.length flags rest all (Nat.le_refl _)
  rw [Nat.sub_self, leadingRun_zero, List.append_nil] at run
  cases flags with
  | nil => exact absurd positive (by simp)
  | cons flag later =>
      have isFlag := all flag (by simp)
      have left : (later ++ rest).drop ((flag :: later).length - 1) = rest := List.drop_left
      rw [List.cons_append] at run ⊢
      rw [packFrom_full index ordinal flag _ backing _ isFlag wide (congrArg List.length run), run,
        left]

theorem map_append_map_cons {ε α : Type} (result : Except ε (List α)) (front : List α) (item : α) :
    (result.map (front ++ ·)).map (item :: ·) = result.map (item :: front ++ ·) := by
  cases result <;> rfl

/-- Packed members leave no run open, so what follows them is packed as if it stood alone. -/
theorem packFrom_flatten_append (index ordinal : Nat) (members : List Member) (rest : List Field)
    (packed : WellPackedFrom ordinal members) :
    packFrom index ordinal (flatten members ++ rest) =
      (packFrom (index + (flatten members).length)
        (ordinal + (members.filterMap Member.packed?).length) rest).map (members ++ ·) := by
  induction members generalizing index ordinal with
  | nil =>
      change packFrom index ordinal rest = (packFrom index ordinal rest).map id
      cases packFrom index ordinal rest <;> rfl
  | cons first members ih =>
      rw [flatten_cons, List.append_assoc, List.length_append, ← Nat.add_assoc]
      cases first with
      | plain field =>
          have later := ih (index + 1) ordinal packed.2
          change packFrom index ordinal (field :: (flatten members ++ rest)) = _
          rw [packFrom_plain index ordinal field _ packed.1, later, map_append_map_cons]
          rfl
      | packed word =>
          obtain ⟨own, ⟨named, wide, all⟩, packed⟩ := packed
          have isRun := word.eq_ofRun ordinal own named
          have later := ih (index + word.flags.length) (ordinal + 1) packed
          change packFrom index ordinal (word.flags ++ (flatten members ++ rest)) = _
          rw [packFrom_word index ordinal word.backing _ _ wide all, ← isRun, later,
            map_append_map_cons, Nat.add_right_comm ordinal 1]
          rfl

theorem packFrom_flatten (index ordinal : Nat) (members : List Member)
    (packed : WellPackedFrom ordinal members) :
    packFrom index ordinal (flatten members) = .ok members := by
  have whole := packFrom_flatten_append index ordinal members [] packed
  rw [List.append_nil, packFrom] at whole
  rw [whole]
  exact congrArg Except.ok (List.append_nil members)

theorem pack_flatten (members : List Member) (packed : WellPacked members) :
    pack (flatten members) = .ok members :=
  packFrom_flatten 0 0 members packed

theorem pack_eq_ok_iff (fields : List Field) (members : List Member) :
    pack fields = .ok members ↔ WellPacked members ∧ flatten members = fields := by
  constructor
  · exact pack_sound fields members
  · intro cut
    rw [← cut.2]
    exact pack_flatten members cut.1

theorem WellPackedFrom.member (ordinal : Nat) (members : List Member)
    (packed : WellPackedFrom ordinal members) : ∀ member ∈ members, member.WellPacked := by
  induction members generalizing ordinal with
  | nil => intro member inside; cases inside
  | cons first members ih =>
      intro member inside
      cases first with
      | plain field =>
          rcases List.mem_cons.mp inside with rfl | later
          · exact packed.1
          · exact ih ordinal packed.2 member later
      | packed word =>
          rcases List.mem_cons.mp inside with rfl | later
          · exact packed.2.1
          · exact ih (ordinal + 1) packed.2.2 member later

theorem WellPacked.member {members : List Member} (packed : WellPacked members) :
    ∀ member ∈ members, member.WellPacked :=
  WellPackedFrom.member 0 members packed

theorem WellPackedFrom.ordinals (ordinal : Nat) (members : List Member)
    (packed : WellPackedFrom ordinal members) :
    (members.filterMap Member.packed?).map FlagWord.ordinal =
      List.range' ordinal (members.filterMap Member.packed?).length := by
  induction members generalizing ordinal with
  | nil => rfl
  | cons first members ih =>
      cases first with
      | plain field => exact ih ordinal packed.2
      | packed word =>
          simp only [List.filterMap_cons, Member.packed?, List.map_cons, List.length_cons,
            List.range'_succ, packed.1]
          rw [ih (ordinal + 1) packed.2.2]

end BinaryRecord
