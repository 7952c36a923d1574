/-! Runs of characters of one kind at the start of a text. Main statement: `readRun?_eq_some_iff`, a
run is read exactly where the text is a nonempty run of the kind that cannot go on. -/

namespace BinaryRecord

def readRun? (kind : Char → Bool) (s : List Char) : Option (List Char × List Char) :=
  match s.takeWhile kind with
  | [] => none
  | run => some (run, s.dropWhile kind)

structure IsRun (kind : Char → Bool) (s : List Char) : Prop where
  nonempty : s ≠ []
  all : ∀ c ∈ s, kind c = true

instance (kind : Char → Bool) (s : List Char) : Decidable (IsRun kind s) :=
  decidable_of_iff (s ≠ [] ∧ s.all kind = true)
    ⟨fun both => ⟨both.1, List.all_eq_true.mp both.2⟩,
      fun isRun => ⟨isRun.nonempty, List.all_eq_true.mpr isRun.all⟩⟩

def Stops (kind : Char → Bool) (rest : List Char) : Prop :=
  ∀ c, rest.head? = some c → kind c = false

instance (kind : Char → Bool) (rest : List Char) : Decidable (Stops kind rest) :=
  decidable_of_iff (rest.head?.all (fun c => !kind c) = true) (by simp [Stops, Option.all_eq_true])

theorem IsRun.append_singleton {kind : Char → Bool} {run : List Char} {c : Char}
    (isRun : IsRun kind run) (holds : kind c = true) : IsRun kind (run ++ [c]) := by
  refine ⟨by simp, ?_⟩
  intro d member
  rcases List.mem_append.mp member with inside | last
  · exact isRun.all d inside
  · rw [List.mem_singleton.mp last]
    exact holds

theorem IsRun.reverse {kind : Char → Bool} {run : List Char} (isRun : IsRun kind run) :
    IsRun kind run.reverse :=
  ⟨by simpa using isRun.nonempty, fun c member => isRun.all c (List.mem_reverse.mp member)⟩

theorem IsRun.mono {kind other : Char → Bool} {run : List Char} (isRun : IsRun kind run)
    (within : ∀ c, kind c = true → other c = true) : IsRun other run :=
  ⟨isRun.nonempty, fun c member => within c (isRun.all c member)⟩

theorem IsRun.not_mem {kind : Char → Bool} {run : List Char} (isRun : IsRun kind run) (c : Char)
    (outside : kind c = false) : c ∉ run := by
  intro member
  rw [isRun.all c member] at outside
  cases outside

theorem takeWhile_append_of_stops (kind : Char → Bool) (run rest : List Char)
    (all : ∀ c ∈ run, kind c = true) (stops : Stops kind rest) :
    (run ++ rest).takeWhile kind = run := by
  rw [List.takeWhile_append_of_pos all]
  cases rest with
  | nil => simp
  | cons c rest => simp [stops c rfl]

theorem dropWhile_append_of_stops (kind : Char → Bool) (run rest : List Char)
    (all : ∀ c ∈ run, kind c = true) (stops : Stops kind rest) :
    (run ++ rest).dropWhile kind = rest := by
  rw [List.dropWhile_append_of_pos all]
  cases rest with
  | nil => rfl
  | cons c rest => simp [stops c rfl]

theorem dropWhile_of_stops (kind : Char → Bool) (s : List Char) (stops : Stops kind s) :
    s.dropWhile kind = s :=
  dropWhile_append_of_stops kind [] s (by simp) stops

theorem stops_dropWhile (kind : Char → Bool) (s : List Char) : Stops kind (s.dropWhile kind) := by
  intro c first
  induction s with
  | nil => simp at first
  | cons d s ih =>
      rw [List.dropWhile_cons] at first
      split at first
      · exact ih first
      · next holds =>
          simp only [List.head?_cons, Option.some.injEq] at first
          simpa [first] using holds

theorem append_inj_of_stops (kind : Char → Bool) (first second rest tail : List Char)
    (firstAll : ∀ c ∈ first, kind c = true) (secondAll : ∀ c ∈ second, kind c = true)
    (restStops : Stops kind rest) (tailStops : Stops kind tail)
    (same : first ++ rest = second ++ tail) : first = second ∧ rest = tail := by
  have taken := congrArg (List.takeWhile kind) same
  have dropped := congrArg (List.dropWhile kind) same
  rw [takeWhile_append_of_stops kind first rest firstAll restStops,
    takeWhile_append_of_stops kind second tail secondAll tailStops] at taken
  rw [dropWhile_append_of_stops kind first rest firstAll restStops,
    dropWhile_append_of_stops kind second tail secondAll tailStops] at dropped
  exact ⟨taken, dropped⟩

/-- A run at the start of a text lies within any part of it that the kind cannot go on after. -/
theorem exists_left_of_run (kind : Char → Bool) (run rest front back : List Char)
    (all : ∀ c ∈ run, kind c = true) (stops : Stops kind back)
    (same : front ++ back = run ++ rest) : ∃ left, front = run ++ left ∧ rest = left ++ back := by
  rcases List.append_eq_append_iff.mp same with ⟨beyond, rfl, rfl⟩ | ⟨left, rfl, rfl⟩
  · cases beyond with
    | nil => exact ⟨[], by simp, rfl⟩
    | cons c beyond =>
        have inside := all c (by simp)
        rw [stops c rfl] at inside
        cases inside
  · exact ⟨left, rfl, rfl⟩

theorem readRun?_append (kind : Char → Bool) (run rest : List Char) (isRun : IsRun kind run)
    (stops : Stops kind rest) : readRun? kind (run ++ rest) = some (run, rest) := by
  rw [readRun?, takeWhile_append_of_stops kind run rest isRun.all stops,
    dropWhile_append_of_stops kind run rest isRun.all stops]
  cases run with
  | nil => exact absurd rfl isRun.nonempty
  | cons c run => rfl

theorem stops_nil (kind : Char → Bool) : Stops kind [] := by
  intro c first
  simp at first

theorem stops_cons (kind : Char → Bool) (c : Char) (rest : List Char) (stops : kind c = false) :
    Stops kind (c :: rest) := by
  intro d first
  simp only [List.head?_cons, Option.some.injEq] at first
  exact first ▸ stops

theorem stops_of_isRun (kind other : Char → Bool) (run rest : List Char) (isRun : IsRun kind run)
    (apart : ∀ c, kind c = true → other c = false) : Stops other (run ++ rest) := by
  obtain ⟨c, run, rfl⟩ := List.exists_cons_of_ne_nil isRun.nonempty
  exact stops_cons other c (run ++ rest) (apart c (isRun.all c (by simp)))

theorem not_stops_of_isRun (kind : Char → Bool) (run rest : List Char) (isRun : IsRun kind run) :
    ¬ Stops kind (run ++ rest) := by
  intro stops
  obtain ⟨c, run, rfl⟩ := List.exists_cons_of_ne_nil isRun.nonempty
  have outside := stops c rfl
  rw [isRun.all c (by simp)] at outside
  exact absurd outside (by simp)

theorem readRun?_eq_some (kind : Char → Bool) (s run rest : List Char)
    (read : readRun? kind s = some (run, rest)) :
    s = run ++ rest ∧ IsRun kind run := by
  unfold readRun? at read
  split at read
  · simp at read
  · next taken =>
      simp only [Option.some.injEq, Prod.mk.injEq] at read
      obtain ⟨rfl, rfl⟩ := read
      exact ⟨by simp, taken, List.all_eq_true.mp List.all_takeWhile⟩

theorem readRun?_eq_some_iff (kind : Char → Bool) (s run rest : List Char) :
    readRun? kind s = some (run, rest) ↔
      s = run ++ rest ∧ IsRun kind run ∧ Stops kind rest := by
  constructor
  · intro read
    have parts := readRun?_eq_some kind s run rest read
    refine ⟨parts.1, parts.2, ?_⟩
    have dropped : s.dropWhile kind = rest := by
      unfold readRun? at read
      split at read
      · simp at read
      · simp only [Option.some.injEq, Prod.mk.injEq] at read
        exact read.2
    rw [← dropped]
    exact stops_dropWhile kind s
  · rintro ⟨rfl, isRun, stops⟩
    exact readRun?_append kind run rest isRun stops

end BinaryRecord
