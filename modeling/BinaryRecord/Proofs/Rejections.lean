import BinaryRecord.Proofs.BrokenRuns
import BinaryRecord.Proofs.Building

namespace BinaryRecord

structure FirstUnreadable (definitions : List String) (index : Nat) (fault : Fault) : Prop where
  before : ∀ earlier ∈ definitions.take index, ∃ field, Field.read earlier = .ok field
  blamed : ∃ definition, definitions[index]? = some definition ∧
    Field.read definition = .error fault

theorem firstUnreadable_cons_zero (definition : String) (definitions : List String)
    (fault : Fault) :
    FirstUnreadable (definition :: definitions) 0 fault ↔
      Field.read definition = .error fault := by
  constructor
  · intro first
    rcases first.blamed with ⟨_, found, unreadable⟩
    cases found
    exact unreadable
  · intro unreadable
    exact ⟨by simp, definition, rfl, unreadable⟩

theorem firstUnreadable_cons_succ (definition : String) (definitions : List String) (index : Nat)
    (fault : Fault) :
    FirstUnreadable (definition :: definitions) (index + 1) fault ↔
      (∃ field, Field.read definition = .ok field) ∧
        FirstUnreadable definitions index fault := by
  constructor
  · intro first
    have before := first.before
    rw [List.take_succ_cons, List.forall_mem_cons] at before
    exact ⟨before.1, before.2, first.blamed⟩
  · rintro ⟨readable, first⟩
    refine ⟨?_, first.blamed⟩
    rw [List.take_succ_cons, List.forall_mem_cons]
    exact ⟨readable, first.before⟩

theorem exists_firstUnreadable_iff (definitions : List String) :
    (∃ index fault, FirstUnreadable definitions index fault) ↔
      ∃ definition ∈ definitions, ∃ fault, Field.read definition = .error fault := by
  constructor
  · rintro ⟨index, fault, first⟩
    rcases first.blamed with ⟨definition, found, unreadable⟩
    exact ⟨definition, List.mem_of_getElem? found, fault, unreadable⟩
  · rintro ⟨blamed, member, fault, unreadable⟩
    induction definitions with
    | nil => cases member
    | cons definition definitions ih =>
        cases read : Field.read definition with
        | error fault => exact ⟨0, fault, (firstUnreadable_cons_zero _ _ _).mpr read⟩
        | ok field =>
            rcases List.mem_cons.mp member with rfl | later
            · exact absurd (read.symm.trans unreadable) (by simp)
            · rcases ih later with ⟨index, fault, first⟩
              refine ⟨index + 1, fault, ?_⟩
              exact (firstUnreadable_cons_succ _ _ _ _).mpr ⟨⟨field, read⟩, first⟩

theorem readFieldsFrom_eq_error_iff (definitions : List String) (index : Nat)
    (placed : PlacedFault) :
    readFieldsFrom index definitions = .error placed ↔
      ∃ place, placed.index = index + place ∧
        FirstUnreadable definitions place placed.fault := by
  induction definitions generalizing index with
  | nil =>
      constructor
      · intro failed
        exact absurd failed (by simp [readFieldsFrom])
      · rintro ⟨place, -, first⟩
        rcases first.blamed with ⟨definition, found, -⟩
        exact absurd found (by simp)
  | cons definition definitions ih =>
      cases read : Field.read definition with
      | error fault =>
          simp only [readFieldsFrom, read, Except.error.injEq]
          constructor
          · rintro rfl
            exact ⟨0, rfl, (firstUnreadable_cons_zero _ _ _).mpr read⟩
          · rintro ⟨place, atPlace, first⟩
            cases place with
            | zero =>
                have unreadable := (firstUnreadable_cons_zero _ _ _).mp first
                have sameFault := Except.error.inj (read.symm.trans unreadable)
                exact congrArg₂ PlacedFault.mk atPlace.symm sameFault
            | succ place =>
                rcases ((firstUnreadable_cons_succ _ _ _ _).mp first).1 with ⟨field, readable⟩
                exact absurd (read.symm.trans readable) (by simp)
      | ok field =>
          -- What cannot be read comes later, so its place here is one more than among the others.
          simp only [readFieldsFrom, read, map_eq_error_iff, ih]
          constructor
          · rintro ⟨place, atPlace, first⟩
            refine ⟨place + 1, by omega, ?_⟩
            exact (firstUnreadable_cons_succ _ _ _ _).mpr ⟨⟨field, read⟩, first⟩
          · rintro ⟨place, atPlace, first⟩
            cases place with
            | zero =>
                have unreadable := (firstUnreadable_cons_zero _ _ _).mp first
                exact absurd (read.symm.trans unreadable) (by simp)
            | succ place =>
                have later := ((firstUnreadable_cons_succ _ _ _ _).mp first).2
                exact ⟨place, by omega, later⟩

theorem readFields_eq_error_iff (definitions : List String) (placed : PlacedFault) :
    readFields definitions = .error placed ↔
      FirstUnreadable definitions placed.index placed.fault := by
  rw [readFields, readFieldsFrom_eq_error_iff]
  simp

theorem buildMembers_of_unreadable (definitions : List String) (placed : PlacedFault)
    (unreadable : readFields definitions = .error placed) :
    buildMembers definitions = .error placed := by
  simp only [buildMembers, unreadable]
  rfl

theorem failure?_buildMembers (definitions : List String) (fields : List Field)
    (read : readFields definitions = .ok fields) :
    failure? (buildMembers definitions) = failure? (pack fields) := by
  simp only [buildMembers, read]
  exact failure?_map (pack fields) distinctMembers

theorem buildMembers_eq_error_iff (definitions : List String) (placed : PlacedFault) :
    buildMembers definitions = .error placed ↔
      FirstUnreadable definitions placed.index placed.fault ∨
        ∃ fields, ReadAs definitions fields ∧ pack fields = .error placed := by
  simp only [← readFields_eq_error_iff, ← readFields_eq_ok_iff]
  cases read : readFields definitions with
  | error unreadable => simp [buildMembers_of_unreadable definitions unreadable read]
  | ok fields =>
      rw [← failure?_eq_some_iff, failure?_buildMembers definitions fields read,
        failure?_eq_some_iff]
      simp

theorem buildMembers_error_bound (definitions : List String) (placed : PlacedFault)
    (failed : buildMembers definitions = .error placed) :
    placed.index < definitions.length := by
  rcases (buildMembers_eq_error_iff definitions placed).mp failed with first | blame
  · rcases first.blamed with ⟨definition, found, -⟩
    exact (List.getElem?_eq_some_iff.mp found).1
  · rcases blame with ⟨fields, read, packFailed⟩
    rw [read.length_eq]
    exact pack_error_bound fields placed packFailed

theorem RecordSource.build_eq_error_iff (source : RecordSource) (rejection : Rejection) :
    source.build = .error rejection ↔
      ∃ placed, buildMembers source.definitions = .error placed ∧
        rejection = placed.reject source.name source.definitions := by
  unfold RecordSource.build
  cases buildMembers source.definitions with
  | error placed => simp [eq_comm]
  | ok members => simp

theorem exists_rejection_iff (source : RecordSource) :
    (∃ rejection, source.build = .error rejection) ↔
      (∃ definition ∈ source.definitions, ∃ fault, Field.read definition = .error fault) ∨
        ∃ fields placed, ReadAs source.definitions fields ∧ pack fields = .error placed := by
  rw [← exists_firstUnreadable_iff]
  constructor
  · rintro ⟨rejection, rejected⟩
    rcases (source.build_eq_error_iff rejection).mp rejected with ⟨placed, failed, -⟩
    rcases (buildMembers_eq_error_iff _ placed).mp failed with first | ⟨fields, read, packFailed⟩
    · exact .inl ⟨placed.index, placed.fault, first⟩
    · exact .inr ⟨fields, placed, read, packFailed⟩
  · have rejects (placed : PlacedFault) (failed : buildMembers source.definitions = .error placed) :
        ∃ rejection, source.build = .error rejection :=
      ⟨_, (source.build_eq_error_iff _).mpr ⟨placed, failed, rfl⟩⟩
    rintro (⟨index, fault, first⟩ | ⟨fields, placed, read, packFailed⟩)
    · exact rejects ⟨index, fault⟩ ((buildMembers_eq_error_iff _ _).mpr (.inl first))
    · exact rejects placed ((buildMembers_eq_error_iff _ _).mpr (.inr ⟨fields, read, packFailed⟩))

/-- A rejection names its record and quotes the definition that it blames: the first one that cannot
be read, and only where all can be read the one that packing blames. -/
theorem build_rejects_iff (source : RecordSource) :
    ((∃ rejection, source.build = .error rejection) ↔
      (∃ definition ∈ source.definitions, ∃ fault, Field.read definition = .error fault) ∨
        ∃ fields placed, ReadAs source.definitions fields ∧ pack fields = .error placed) ∧
    ∀ rejection, source.build = .error rejection ↔
      rejection.record = source.name ∧
        source.definitions[rejection.index]? = some rejection.definition ∧
        (FirstUnreadable source.definitions rejection.index rejection.fault ∨
          ∃ fields, ReadAs source.definitions fields ∧
            pack fields = .error ⟨rejection.index, rejection.fault⟩) := by
  refine ⟨exists_rejection_iff source, ?_⟩
  intro rejection
  rw [source.build_eq_error_iff]
  constructor
  · rintro ⟨placed, failed, rfl⟩
    have bound := buildMembers_error_bound source.definitions placed failed
    have blame := (buildMembers_eq_error_iff source.definitions placed).mp failed
    refine ⟨rfl, ?_, blame⟩
    simp [PlacedFault.reject, List.getElem?_eq_getElem bound]
  · rcases rejection with ⟨record, index, definition, fault⟩
    rintro ⟨named, quoted, blame⟩
    have failed := (buildMembers_eq_error_iff source.definitions ⟨index, fault⟩).mpr blame
    have text : source.definitions.getD index "" = definition := by
      rw [List.getD_eq_getElem?_getD, quoted, Option.getD_some]
    subst named text
    exact ⟨⟨index, fault⟩, failed, rfl⟩

/-- The run is broken at once, but the last definition cannot be read. -/
example : RecordSource.build ⟨"Late", ["u8 flag:1", "u8 count", "u8"]⟩ =
    .error ⟨"Late", 2, "u8", .malformed⟩ := by
  decide +kernel

end BinaryRecord
