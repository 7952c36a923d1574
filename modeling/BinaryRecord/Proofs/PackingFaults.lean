import BinaryRecord.Proofs.Packing

namespace BinaryRecord

def failure? {ε α : Type} : Except ε α → Option ε
  | .ok _ => none
  | .error failure => some failure

theorem failure?_eq_some_iff {ε α : Type} (result : Except ε α) (failure : ε) :
    failure? result = some failure ↔ result = .error failure := by
  cases result <;> simp [failure?]

theorem failure?_map {ε α β : Type} (result : Except ε α) (f : α → β) :
    failure? (result.map f) = failure? result := by
  cases result <;> rfl

theorem map_eq_error_iff {ε α β : Type} (result : Except ε α) (f : α → β) (failure : ε) :
    result.map f = .error failure ↔ result = .error failure := by
  rw [← failure?_eq_some_iff, failure?_map, failure?_eq_some_iff]

theorem map_backing?_leadingRun (backing : Numeric) (width : Nat) (fields : List Field) :
    (leadingRun backing width fields).map Field.backing? =
      ((fields.map Field.backing?).take width).takeWhile fun found => found = some backing := by
  rw [leadingRun, ← List.map_take, List.takeWhile_map]
  rfl

section SameBackings

variable (first second : List Field) (same : first.map Field.backing? = second.map Field.backing?)

include same

theorem leadingRun_length_congr (backing : Numeric) (width : Nat) :
    (leadingRun backing width second).length = (leadingRun backing width first).length := by
  have runs : (leadingRun backing width second).map Field.backing? =
      (leadingRun backing width first).map Field.backing? := by
    rw [map_backing?_leadingRun, map_backing?_leadingRun, same]
  simpa using congrArg List.length runs

theorem runFault_congr (index : Nat) (backing : Numeric) (width length : Nat) :
    runFault index backing width length second[length]? =
      runFault index backing width length first[length]? := by
  have next : second[length]?.map Field.backing? = first[length]?.map Field.backing? := by
    rw [← List.getElem?_map, ← List.getElem?_map, same]
  have found : second[length]?.bind Field.backing? = first[length]?.bind Field.backing? := by
    simpa only [Option.bind_map, Function.id_comp] using congrArg (Option.bind · id) next
  rw [runFault, runFault, found]

/-- Fields of the same backings fail alike, and a list that starts later fails that much later. The
ordinals of words play no part. -/
theorem failure?_packFrom (index offset ordinal other : Nat) :
    failure? (packFrom (index + offset) other second) =
      (failure? (packFrom index ordinal first)).map (PlacedFault.shift offset) := by
  fun_induction packFrom index ordinal first generalizing second other with
  | case1 index ordinal =>
      obtain rfl : second = [] := by simpa using same
      simp [packFrom, failure?]
  | case2 index ordinal field rest noFlag ih =>
      rcases List.map_eq_cons_iff.mp same.symm with ⟨twin, later, rfl, twinBacking, laterSame⟩
      rw [packFrom_plain _ _ _ _ (twinBacking.trans noFlag), failure?_map, failure?_map,
        Nat.add_right_comm, ih later laterSame.symm other]
  | case3 index ordinal field rest backing flag noWidth =>
      rcases List.map_eq_cons_iff.mp same.symm with ⟨twin, later, rfl, twinBacking, -⟩
      rw [packFrom_noWidth _ _ _ _ backing (twinBacking.trans flag) noWidth]
      rfl
  | case4 index ordinal field rest backing flag width wide run full ih =>
      have twinFull := (leadingRun_length_congr _ second same backing width).trans full
      rcases List.map_eq_cons_iff.mp same.symm with ⟨twin, later, rfl, twinBacking, laterSame⟩
      have leftSame : (rest.drop (width - 1)).map Field.backing? =
          (later.drop (width - 1)).map Field.backing? := by
        rw [List.map_drop, List.map_drop, laterSame]
      rw [packFrom_full _ _ _ _ backing width (twinBacking.trans flag) wide twinFull, failure?_map,
        failure?_map, Nat.add_right_comm, ih _ leftSame (other + 1)]
  | case5 index ordinal field rest backing flag width wide run short =>
      -- Both runs fall short after as many flags, and then meet flags of one backing or the end.
      have sameLength := leadingRun_length_congr _ second same backing width
      have sameFault := runFault_congr _ second same (index + offset) backing width run.length
      rcases List.map_eq_cons_iff.mp same.symm with ⟨twin, later, rfl, twinBacking, laterSame⟩
      rw [packFrom_short _ _ _ _ backing width (twinBacking.trans flag) wide (sameLength ▸ short),
        sameLength]
      simp only [failure?, Option.map_some]
      rw [sameFault, runFault_shift]

end SameBackings

theorem failure?_pack_append (members : List Member) (back : List Field)
    (packed : WellPacked members) :
    failure? (pack (flatten members ++ back)) =
      (failure? (pack back)).map (PlacedFault.shift (flatten members).length) := by
  rw [pack, packFrom_flatten_append 0 0 members back packed, failure?_map]
  exact failure?_packFrom back back rfl 0 (flatten members).length 0 _

end BinaryRecord
