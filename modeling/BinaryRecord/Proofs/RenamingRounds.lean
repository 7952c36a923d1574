import BinaryRecord.Proofs.Renaming
import Mathlib.Algebra.Order.BigOperators.Group.List
import Mathlib.Algebra.Order.Group.Nat
import Mathlib.Data.List.Induction
import Mathlib.Logic.Function.Iterate

/-! Telling items apart again and again. The pass looks back only, so items come to rest from the
front; and an item that is numbered once more has more letters, so in the end it meets none of those
at rest. Main statement: `distinct_settles`. -/

namespace BinaryRecord

variable {α : Type} [HasName α]

def MeetsOne (items : List α) (item : α) : Prop :=
  ∃ other ∈ items, snakeCase (nameOf other) = snakeCase (nameOf item)

theorem exists_distinct_append_singleton (items : List α) (item : α) :
    ∃ final, distinct (items ++ [item]) = distinct items ++ [final] := by
  rcases distinct_prefix_append items [item] with ⟨finals, pass⟩
  have lengths := congrArg List.length pass
  simp only [List.length_append, distinct_length, Nat.add_left_cancel_iff] at lengths
  rcases List.length_eq_one_iff.mp lengths with ⟨final, rfl⟩
  exact ⟨final, pass.symm⟩

theorem exists_iterate_append_singleton (items : List α) (item : α) (rounds : Nat) :
    ∃ final, distinct^[rounds] (items ++ [item]) = distinct^[rounds] items ++ [final] := by
  induction rounds with
  | zero => exact ⟨item, rfl⟩
  | succ rounds ih =>
      rcases ih with ⟨later, before⟩
      rw [Function.iterate_succ_apply', Function.iterate_succ_apply', before]
      exact exists_distinct_append_singleton _ later

theorem distinct_append_of_meets (items : List α) (item : α) (apart : DistinctNames items)
    (meets : MeetsOne items item) :
    distinct (items ++ [item]) = items ++ [withName item (numbered (nameOf item) 0)] := by
  have namesApart : ((items.map nameOf).map snakeCase).Nodup := by
    rw [List.map_map]
    exact apart
  have seen : snakeCase (nameOf item) ∈ ((items.map nameOf).map snakeCase).reverse ++ [] := by
    simpa [MeetsOne] using meets
  have pass : distinctNames (items.map nameOf ++ [nameOf item]) =
      items.map nameOf ++ [numbered (nameOf item) 0] := by
    rw [distinctNames, distinctFrom_append_of_apart _ _ [] 0 namesApart (by simp), distinctFrom,
      if_pos seen]
    rfl
  rw [distinct, List.map_append, List.map_singleton, pass, List.zipWith_append (by simp),
    zipWith_withName_self]
  rfl

theorem distinctNames_append_of_not_meets (items : List α) (item : α)
    (apart : DistinctNames items) (alone : ¬ MeetsOne items item) :
    DistinctNames (items ++ [item]) := by
  rw [DistinctNames, List.map_append, List.map_singleton]
  refine List.nodup_append.mpr ⟨apart, by simp, ?_⟩
  simp only [List.mem_map, List.mem_singleton]
  rintro _ ⟨other, inside, rfl⟩ _ rfl same
  exact alone ⟨other, inside, same⟩

theorem letterCount_of_meets (items : List α) (item : α) (most : Nat)
    (bound : ∀ other ∈ items, letterCount (nameOf other) ≤ most) (meets : MeetsOne items item) :
    letterCount (nameOf item) ≤ most := by
  rcases meets with ⟨other, inside, same⟩
  rw [← letterCount_snakeCase, ← same, letterCount_snakeCase]
  exact bound other inside

/-- The induction is on how many letters the item is short of, at most, to meet no other. -/
theorem exists_settled_append_singleton (items : List α) (item : α) (most gap : Nat)
    (apart : DistinctNames items) (bound : ∀ other ∈ items, letterCount (nameOf other) ≤ most)
    (close : most < letterCount (nameOf item) + gap) :
    ∃ rounds, DistinctNames (distinct^[rounds] (items ++ [item])) := by
  induction gap generalizing item with
  | zero =>
      refine ⟨0, distinctNames_append_of_not_meets items item apart ?_⟩
      intro meets
      have few := letterCount_of_meets items item most bound meets
      omega
  | succ gap ih =>
      by_cases meets : MeetsOne items item
      · have closer : most <
            letterCount (nameOf (withName item (numbered (nameOf item) 0))) + gap := by
          have longer := letterCount_numbered (nameOf item) 0
          rw [HasName.nameOf_withName]
          omega
        rcases ih _ closer with ⟨rounds, settled⟩
        refine ⟨rounds + 1, ?_⟩
        rw [Function.iterate_succ_apply, distinct_append_of_meets items item apart meets]
        exact settled
      · exact ⟨0, distinctNames_append_of_not_meets items item apart meets⟩

theorem exists_letterCount_le (items : List α) :
    ∃ most, ∀ item ∈ items, letterCount (nameOf item) ≤ most := by
  refine ⟨(items.map fun item => letterCount (nameOf item)).sum, ?_⟩
  intro item inside
  exact List.le_sum_of_mem (List.mem_map_of_mem inside)

/-- The induction is from the front: the items before the last have come to rest when its turn
comes. -/
theorem exists_settled (items : List α) : ∃ rounds, DistinctNames (distinct^[rounds] items) := by
  induction items using List.reverseRecOn with
  | nil => exact ⟨0, List.nodup_nil⟩
  | append_singleton items item ih =>
      rcases ih with ⟨rounds, apart⟩
      rcases exists_iterate_append_singleton items item rounds with ⟨last, front⟩
      rcases exists_letterCount_le (distinct^[rounds] items) with ⟨most, bound⟩
      rcases exists_settled_append_singleton _ last most (most + 1) apart bound (by omega) with
        ⟨more, settled⟩
      refine ⟨more + rounds, ?_⟩
      rw [Function.iterate_add_apply, front]
      exact settled

/-- After finitely many passes no two items agree in snake case, and nothing changes any more. -/
theorem distinct_settles (items : List α) :
    ∃ rounds, DistinctNames (distinct^[rounds] items) ∧
      ∀ more, distinct^[rounds + more] items = distinct^[rounds] items := by
  rcases exists_settled items with ⟨rounds, settled⟩
  refine ⟨rounds, settled, ?_⟩
  intro more
  rw [Nat.add_comm, Function.iterate_add_apply]
  exact Function.iterate_fixed (distinct_eq_self _ settled) more

example : distinctNames^[2] ["a", "a", "a_0"] = ["a", "a_0", "a_0_0"] := by decide +kernel

end BinaryRecord
