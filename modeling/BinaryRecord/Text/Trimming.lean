import BinaryRecord.Text.Character
import Mathlib.Data.List.DropRight
import Mathlib.Data.List.Induction

namespace BinaryRecord

structure IsTrimmed (s : List Char) : Prop where
  start : Stops isBlank s
  finish : Stops isBlank s.reverse

instance (s : List Char) : Decidable (IsTrimmed s) :=
  decidable_of_iff (Stops isBlank s ∧ Stops isBlank s.reverse)
    ⟨fun both => ⟨both.1, both.2⟩, fun trimmed => ⟨trimmed.start, trimmed.finish⟩⟩

theorem trimEnd_eq_rdropWhile (s : List Char) : trimEnd s = s.rdropWhile isBlank := rfl

theorem trim_append_singleton (s : List Char) (c : Char) (blank : isBlank c = true) :
    trim (s ++ [c]) = trim s := by
  rw [trim, trim, trimStart, trimStart, List.dropWhile_append]
  split
  · next allBlank =>
      rw [List.isEmpty_iff.mp allBlank]
      simp [blank]
  · rw [trimEnd_eq_rdropWhile, trimEnd_eq_rdropWhile]
    exact List.rdropWhile_concat_pos isBlank _ c blank

theorem isTrimmed_trimEnd (s : List Char) (start : Stops isBlank s) : IsTrimmed (trimEnd s) := by
  constructor
  · intro c first
    rcases List.head?_eq_some_iff.mp first with ⟨rest, cut⟩
    rcases List.rdropWhile_prefix isBlank s with ⟨tail, whole⟩
    apply start c
    rw [← whole, ← trimEnd_eq_rdropWhile, cut]
    rfl
  · rw [trimEnd, List.reverse_reverse]
    exact stops_dropWhile isBlank _

theorem isTrimmed_trim (s : List Char) : IsTrimmed (trim s) :=
  isTrimmed_trimEnd (trimStart s) (stops_dropWhile isBlank s)

theorem trimEnd_of_stops (s : List Char) (finish : Stops isBlank s.reverse) : trimEnd s = s := by
  rw [trimEnd, dropWhile_of_stops isBlank s.reverse finish, List.reverse_reverse]

theorem trim_of_isTrimmed (s : List Char) (trimmed : IsTrimmed s) : trim s = s := by
  rw [trim, trimStart, dropWhile_of_stops isBlank s trimmed.start,
    trimEnd_of_stops s trimmed.finish]

theorem mem_of_mem_trimEnd (s : List Char) (c : Char) (member : c ∈ trimEnd s) : c ∈ s :=
  (List.rdropWhile_prefix isBlank s).subset member

theorem mem_of_mem_trim (s : List Char) (c : Char) (member : c ∈ trim s) : c ∈ s :=
  (List.dropWhile_sublist isBlank).subset (mem_of_mem_trimEnd (trimStart s) c member)

def EndsSolid (s : List Char) : Prop := s ≠ [] ∧ Stops isBlank s.reverse

theorem EndsSolid.append {s : List Char} (solid : EndsSolid s) (front : List Char) :
    EndsSolid (front ++ s) := by
  obtain ⟨c, rest, reversed⟩ := List.exists_cons_of_ne_nil (List.reverse_ne_nil_iff.mpr solid.1)
  constructor
  · simp [solid.1]
  · rw [List.reverse_append, reversed, List.cons_append]
    exact stops_cons isBlank c _ (solid.2 c (by rw [reversed]; rfl))

theorem endsSolid_of_isRun (kind : Char → Bool) (run : List Char) (isRun : IsRun kind run)
    (apart : ∀ c, kind c = true → isBlank c = false) : EndsSolid run := by
  have stops := stops_of_isRun kind isBlank run.reverse [] isRun.reverse apart
  rw [List.append_nil] at stops
  exact ⟨isRun.nonempty, stops⟩

/-- What is not all white space is cut behind its last character that is none. -/
theorem exists_solid (s : List Char) (visible : ∃ c ∈ s, isBlank c = false) :
    ∃ core back, s = core ++ back ∧ EndsSolid core ∧ ∀ c ∈ back, isBlank c = true := by
  have cut : s.rdropWhile isBlank ++ s.rtakeWhile isBlank = s :=
    List.rdropWhile_append_rtakeWhile
  refine ⟨s.rdropWhile isBlank, s.rtakeWhile isBlank, cut.symm, ⟨?_, ?_⟩, ?_⟩
  · intro none
    obtain ⟨c, member, shown⟩ := visible
    rw [List.rdropWhile_eq_nil_iff.mp none c member] at shown
    cases shown
  · rw [List.rdropWhile, List.reverse_reverse]
    exact stops_dropWhile isBlank _
  · intro c member
    exact List.mem_rtakeWhile_imp member

theorem trim_append_of_blank (s back : List Char) (blank : ∀ c ∈ back, isBlank c = true) :
    trim (s ++ back) = trim s := by
  induction back using List.reverseRecOn with
  | nil => rw [List.append_nil]
  | append_singleton back c ih =>
      have last := blank c (by simp)
      have before : ∀ d ∈ back, isBlank d = true := fun d inside => blank d (by simp [inside])
      rw [← List.append_assoc, trim_append_singleton _ c last, ih before]

theorem trim_surrounded (front core back : List Char) (trimmed : IsTrimmed core)
    (frontBlank : ∀ c ∈ front, isBlank c = true) (backBlank : ∀ c ∈ back, isBlank c = true) :
    trim (front ++ (core ++ back)) = core := by
  have start : trim (front ++ (core ++ back)) = trim (core ++ back) := by
    rw [trim, trimStart, List.dropWhile_append_of_pos frontBlank, trim, trimStart]
  rw [start, trim_append_of_blank core back backBlank, trim_of_isTrimmed core trimmed]

end BinaryRecord
