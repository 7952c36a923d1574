import BinaryRecord.Proofs.Identifiers
import BinaryRecord.Proofs.SnakeForm

namespace BinaryRecord

structure IsFieldIdentifier (name : String) : Prop where
  snake : IsSnake name.toList
  noDigit : startsWithDigit name.toList = false
  notType : name ≠ "type"

theorem IsSnake.append {s rest : List Char} (snake : IsSnake s) (restSnake : IsSnake rest)
    (parted : s.getLast? ≠ some '_') : IsSnake (s ++ rest) := by
  constructor
  · intro c member
    rcases List.mem_append.mp member with inside | later
    · exact snake.low c inside
    · exact restSnake.low c later
  · apply (isChain_parted_iff _).mp
    refine List.isChain_append.mpr ⟨(isChain_parted_iff s).mpr snake.single,
      (isChain_parted_iff rest).mpr restSnake.single, ?_⟩
    intro c last d _ both
    rw [both.1] at last
    exact parted last

theorem isFieldIdentifier_identifier (name : String) (snake : IsSnake name.toList) :
    IsFieldIdentifier (identifier name) := by
  cases digit : startsWithDigit name.toList with
  | true =>
      rw [identifier_of_digit name digit]
      refine ⟨?_, not_startsWithDigit_field name, field_append_ne name "type" (by decide)⟩
      rw [String.toList_append]
      exact IsSnake.append (by decide) snake (by decide)
  | false =>
      rw [identifier_of_not_digit name digit]
      split
      · exact ⟨by decide, by decide, by decide⟩
      · next notType => exact ⟨snake, digit, notType⟩

theorem fieldIdentifier_of_isFieldIdentifier (name : String) (ident : IsFieldIdentifier name) :
    fieldIdentifier name = name := by
  rw [fieldIdentifier, (snakeCase_eq_self_iff name).mpr ident.snake,
    identifier_of_not_digit name ident.noDigit, if_neg ident.notType]

theorem isFieldIdentifier_fieldIdentifier (name : String) :
    IsFieldIdentifier (fieldIdentifier name) :=
  isFieldIdentifier_identifier _ (isSnake_snakeCase name)

theorem fieldIdentifier_fieldIdentifier (name : String) :
    fieldIdentifier (fieldIdentifier name) = fieldIdentifier name :=
  fieldIdentifier_of_isFieldIdentifier _ (isFieldIdentifier_fieldIdentifier name)

theorem exists_fieldIdentifier_iff (name : String) :
    (∃ source, fieldIdentifier source = name) ↔ IsFieldIdentifier name := by
  constructor
  · intro given
    rcases given with ⟨source, rfl⟩
    exact isFieldIdentifier_fieldIdentifier source
  · intro ident
    exact ⟨name, fieldIdentifier_of_isFieldIdentifier name ident⟩

variable {α : Type} [HasName α]

/-- Snake case leaves its own results as they are, and no other names. So a name always meets its
snake case, and what is printed for it stays what it is. -/
theorem snakeCase_projects (name : String) :
    snakeCase (snakeCase name) = snakeCase name ∧
      (snakeCase name = name ↔ IsSnake name.toList) ∧
      (∀ item : α, ¬ DistinctNames [withName item name, withName item (snakeCase name)]) ∧
      fieldIdentifier (snakeCase name) = fieldIdentifier name ∧
      fieldIdentifier (fieldIdentifier name) = fieldIdentifier name := by
  refine ⟨snakeCase_snakeCase name, snakeCase_eq_self_iff name, ?_, ?_,
    fieldIdentifier_fieldIdentifier name⟩
  · intro item apart
    simp [DistinctNames, HasName.nameOf_withName, snakeCase_snakeCase] at apart
  · rw [fieldIdentifier, fieldIdentifier, snakeCase_snakeCase]

/-- Two names share a field identifier just where they agree in snake case, or the snake case of one
is changed into that of the other. -/
theorem fieldIdentifier_exact :
    (∀ name other, fieldIdentifier name = fieldIdentifier other ↔
      snakeCase name = snakeCase other ∨ Merges (snakeCase name) (snakeCase other) ∨
        Merges (snakeCase other) (snakeCase name)) ∧
      (∀ name, fieldIdentifier (fieldIdentifier name) = fieldIdentifier name) ∧
      ∀ name, (∃ source, fieldIdentifier source = name) ↔ IsFieldIdentifier name := by
  refine ⟨?_, fieldIdentifier_fieldIdentifier, exists_fieldIdentifier_iff⟩
  intro name other
  exact identifier_eq_iff (snakeCase name) (snakeCase other)

example : fieldIdentifier "Type" = fieldIdentifier "ty" ∧
    fieldIdentifier "3D" = fieldIdentifier "Field3_D" := by decide +kernel

end BinaryRecord
