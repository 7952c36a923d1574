import BinaryRecord.Storage.Tree
import Mathlib.Data.List.Nodup

/-! Trees with the same folders, as they are left when files of one folder change. Paths lead to the
same places in them. Main statements: `modify_sameFolders`, `walk_sameFolders`, `write_sameFolders`
and `bytes?_of_write`. -/

namespace BinaryRecord

theorem bind_eq_ok_iff {ε α β : Type} (first : Except ε α) (next : α → Except ε β) (value : β) :
    first >>= next = .ok value ↔ ∃ between, first = .ok between ∧ next between = .ok value := by
  cases first with
  | error fault => simp [bind, Except.bind]
  | ok between => simp [bind, Except.bind]

def Tree.HasFolder (tree : Tree) (place : List FileName) : Prop :=
  ∃ entries, tree.find place = .ok (.folder entries)

def Tree.SameFolders (tree other : Tree) : Prop :=
  ∀ place, tree.HasFolder place ↔ other.HasFolder place

def Tree.modify (change : List (FileName × Tree) → List (FileName × Tree)) :
    List FileName → Tree → Tree
  | _, .file bytes => .file bytes
  | [], .folder entries => .folder (change entries)
  | name :: names, .folder entries =>
      match entries.lookup name with
      | some tree => .folder (setEntry name (tree.modify change names) entries)
      | none => .folder entries

def Tree.bytes? (tree : Tree) (path : Path) : Option (List UInt8) :=
  match tree.target path >>= fun place => tree.find place with
  | .ok (.file bytes) => some bytes
  | _ => none

theorem lookup_entry (name key : FileName) (tree : Tree) (entries : List (FileName × Tree)) :
    ((key, tree) :: entries).lookup name =
      if name = key then some tree else entries.lookup name := by
  rw [List.lookup_cons]
  by_cases same : name = key
  · simp [same]
  · simp [same, beq_false_of_ne same]

theorem lookup_setEntry (name other : FileName) (tree : Tree) (entries : List (FileName × Tree)) :
    (setEntry name tree entries).lookup other =
      if other = name then some tree else entries.lookup other := by
  induction entries with
  | nil => rw [setEntry, lookup_entry]
  | cons entry entries ih =>
      obtain ⟨key, inner⟩ := entry
      unfold setEntry
      by_cases found : key = name
      · subst found
        rw [if_pos rfl, lookup_entry, lookup_entry]
        by_cases same : other = key <;> simp only [same, if_true, if_false]
      · rw [if_neg found, lookup_entry, lookup_entry, ih]
        by_cases same : other = name
        · have differs : ¬ other = key := fun again => found (again.symm.trans same)
          rw [if_neg differs, if_pos same, if_pos same]
        · rw [if_neg same, if_neg same]

theorem find_cons (name : FileName) (names : List FileName) (tree found : Tree) :
    tree.find (name :: names) = .ok found ↔
      ∃ entries inner, tree = .folder entries ∧ entries.lookup name = some inner ∧
        inner.find names = .ok found := by
  cases tree with
  | file bytes => simp [Tree.find]
  | folder entries =>
      rw [Tree.find]
      cases looked : entries.lookup name with
      | none => simp [looked]
      | some inner => simp [looked]

theorem find_append (place names : List FileName) (tree found : Tree) :
    tree.find (place ++ names) = .ok found ↔
      ∃ inner, tree.find place = .ok inner ∧ inner.find names = .ok found := by
  induction place generalizing tree with
  | nil => simp [Tree.find]
  | cons name place ih =>
      rw [List.cons_append]
      simp only [find_cons, ih]
      grind

theorem hasFolder_nil (entries : List (FileName × Tree)) : (Tree.folder entries).HasFolder [] :=
  ⟨entries, rfl⟩

theorem not_hasFolder_file (bytes : List UInt8) (place : List FileName) :
    ¬ (Tree.file bytes).HasFolder place := by
  intro isFolder
  obtain ⟨entries, found⟩ := isFolder
  cases place <;> simp [Tree.find] at found

theorem hasFolder_cons (name : FileName) (names : List FileName)
    (entries : List (FileName × Tree)) :
    (Tree.folder entries).HasFolder (name :: names) ↔
      ∃ inner, entries.lookup name = some (.folder inner) ∧
        (Tree.folder inner).HasFolder names := by
  simp only [Tree.HasFolder, find_cons]
  constructor
  · intro found
    obtain ⟨last, _, inner, same, looked, found⟩ := found
    cases same
    cases inner with
    | file bytes => exact absurd ⟨last, found⟩ (not_hasFolder_file bytes names)
    | folder inner => exact ⟨inner, looked, last, found⟩
  · intro found
    obtain ⟨inner, looked, last, found⟩ := found
    exact ⟨last, entries, .folder inner, rfl, looked, found⟩

theorem hasFolder_cons_of_lookup {name : FileName} {entries : List (FileName × Tree)}
    {inner : Tree} (looked : entries.lookup name = some inner) (names : List FileName) :
    (Tree.folder entries).HasFolder (name :: names) ↔ inner.HasFolder names := by
  rw [hasFolder_cons, looked]
  cases inner with
  | file bytes => simp [not_hasFolder_file]
  | folder inner => simp

section Modify

variable (change : List (FileName × Tree) → List (FileName × Tree))

theorem find_modify (place : List FileName) (tree : Tree) (entries : List (FileName × Tree))
    (found : tree.find place = .ok (.folder entries)) :
    (tree.modify change place).find place = .ok (.folder (change entries)) := by
  induction place generalizing tree with
  | nil =>
      cases Except.ok.inj found
      rfl
  | cons name names ih =>
      obtain ⟨outer, inner, rfl, looked, further⟩ := (find_cons _ _ _ _).mp found
      rw [Tree.modify, looked, find_cons]
      exact ⟨_, _, rfl, by rw [lookup_setEntry, if_pos rfl], ih inner further⟩

/-- The places of folders stay where a change keeps the folders among the entries. -/
theorem modify_sameFolders (place : List FileName) (tree : Tree)
    (entries : List (FileName × Tree)) (found : tree.find place = .ok (.folder entries))
    (keeps : ∀ name inner, (change entries).lookup name = some (.folder inner) ↔
      entries.lookup name = some (.folder inner)) :
    tree.SameFolders (tree.modify change place) := by
  induction place generalizing tree with
  | nil =>
      cases Except.ok.inj found
      intro other
      cases other with
      | nil => exact iff_of_true (hasFolder_nil _) (hasFolder_nil _)
      | cons name names => simp only [Tree.modify, hasFolder_cons, keeps]
  | cons step steps ih =>
      obtain ⟨outer, inner, rfl, looked, further⟩ := (find_cons _ _ _ _).mp found
      have same := ih inner further
      rw [Tree.modify, looked]
      intro other
      cases other with
      | nil => exact iff_of_true (hasFolder_nil _) (hasFolder_nil _)
      | cons name names =>
          -- Off the way to the place nothing changes.
          by_cases isStep : name = step
          · subst isStep
            have changed := lookup_setEntry name name (inner.modify change steps) outer
            rw [if_pos rfl] at changed
            rw [hasFolder_cons_of_lookup looked, hasFolder_cons_of_lookup changed]
            exact same names
          · rw [hasFolder_cons, hasFolder_cons, lookup_setEntry, if_neg isStep]

end Modify

section Walk

variable {tree other : Tree} (same : tree.SameFolders other)

theorem hasFolder_of_advance {place next : List FileName} {part : FileName}
    (advances : tree.advance place part = .ok next) : tree.HasFolder place := by
  obtain ⟨at?, found, rest⟩ := (bind_eq_ok_iff _ _ _).mp advances
  cases at? with
  | file bytes => cases rest
  | folder entries => exact ⟨entries, found⟩

theorem hasFolder_of_walk (parts : List FileName) (place last : List FileName)
    (walks : parts.foldlM tree.advance place = .ok last) (ends : tree.HasFolder last) :
    tree.HasFolder place := by
  cases parts with
  | nil =>
      cases Except.ok.inj walks
      exact ends
  | cons part parts =>
      rw [List.foldlM_cons] at walks
      obtain ⟨next, advances, -⟩ := (bind_eq_ok_iff _ _ _).mp walks
      exact hasFolder_of_advance advances

include same in
theorem advance_sameFolders {place next : List FileName} {part : FileName}
    (advances : tree.advance place part = .ok next) (ends : tree.HasFolder next) :
    other.advance place part = .ok next := by
  obtain ⟨entries, found⟩ := hasFolder_of_advance advances
  obtain ⟨others, otherFound⟩ := (same place).mp ⟨entries, found⟩
  unfold Tree.advance at advances ⊢
  rw [found] at advances
  rw [otherFound]
  simp only [bind, Except.bind] at advances ⊢
  split_ifs at advances ⊢ with stays up tooLong here
  · exact advances
  · exact advances
  · exact advances
  · cases Except.ok.inj advances
    obtain ⟨last, further⟩ := (same _).mp ends
    obtain ⟨inner, isPlace, further⟩ := (find_append _ _ _ _).mp further
    cases Except.ok.inj (otherFound.symm.trans isPlace)
    obtain ⟨_, next, same, looked, -⟩ := (find_cons _ _ _ _).mp further
    cases same
    exact absurd (Option.isSome_of_eq_some looked) here

include same in
theorem walk_sameFolders (parts : List FileName) (place last : List FileName)
    (walks : parts.foldlM tree.advance place = .ok last) (ends : tree.HasFolder last) :
    parts.foldlM other.advance place = .ok last := by
  induction parts generalizing place with
  | nil => exact walks
  | cons part parts ih =>
      rw [List.foldlM_cons] at walks ⊢
      obtain ⟨next, advances, walks⟩ := (bind_eq_ok_iff _ _ _).mp walks
      have nextFolder := hasFolder_of_walk parts next last walks ends
      rw [bind_eq_ok_iff]
      exact ⟨next, advance_sameFolders same advances nextFolder, ih next walks⟩

theorem hasFolder_of_walk_dot (parts : List FileName) (last : List FileName)
    (walks : tree.walk (parts ++ [[dot]]) = .ok last) : tree.HasFolder last := by
  rw [Tree.walk, List.foldlM_append] at walks
  obtain ⟨place, -, stays⟩ := (bind_eq_ok_iff _ _ _).mp walks
  rw [List.foldlM_cons] at stays
  obtain ⟨next, advances, ends⟩ := (bind_eq_ok_iff _ _ _).mp stays
  cases Except.ok.inj ends
  obtain ⟨entries, found⟩ := hasFolder_of_advance advances
  rw [Tree.advance, found] at advances
  simp only [bind, Except.bind, or_true, if_true] at advances
  cases Except.ok.inj advances
  exact ⟨entries, found⟩

include same in
theorem target_sameFolders {path : Path} {goal : List FileName}
    (leads : tree.target path = .ok goal) :
    other.target path = .ok goal ∧ ∃ place name, goal = place ++ [name] ∧ tree.HasFolder place := by
  obtain ⟨route, routed, leads⟩ := (bind_eq_ok_iff _ _ _).mp leads
  rw [Tree.target, routed]
  simp only [bind, Except.bind] at leads ⊢
  cases backwards : route.reverse.dropWhile List.isEmpty with
  | nil =>
      rw [backwards] at leads
      cases leads
  | cons name before =>
      rw [backwards] at leads
      cases walks : tree.walk ([dot] :: before).reverse with
      | error fault =>
          simp only [walks] at leads
          cases leads
      | ok place =>
          simp only [walks] at leads
          have ends : tree.HasFolder place := by
            rw [List.reverse_cons] at walks
            exact hasFolder_of_walk_dot _ _ walks
          have otherWalks : other.walk ([dot] :: before).reverse = .ok place :=
            walk_sameFolders same _ _ _ walks ends
          dsimp only
          rw [otherWalks]
          refine ⟨leads, place, name, ?_, ends⟩
          split_ifs at leads
          exact (Except.ok.inj leads).symm

end Walk

section Write

variable {tree other : Tree} (bytes : List UInt8) (place : List FileName) (name : FileName)

theorem writeAt_append (entries : List (FileName × Tree))
    (found : tree.find place = .ok (.folder entries)) (after : Tree) :
    tree.writeAt bytes (place ++ [name]) = .ok after ↔
      ¬ tree.HasFolder (place ++ [name]) ∧
        tree.modify (setEntry name (.file bytes)) place = after := by
  induction place generalizing tree after with
  | nil =>
      cases Except.ok.inj found
      cases looked : entries.lookup name with
      | none => simp [Tree.writeAt, looked, hasFolder_cons, Tree.modify]
      | some inner =>
          rw [List.nil_append, hasFolder_cons_of_lookup looked]
          cases inner with
          | file old =>
              simp [Tree.writeAt, looked, not_hasFolder_file, Tree.modify, pure, Except.pure,
                bind, Except.bind]
          | folder inner => simp [Tree.writeAt, looked, hasFolder_nil, bind, Except.bind]
  | cons step steps ih =>
      obtain ⟨outer, inner, rfl, looked, further⟩ := (find_cons _ _ _ _).mp found
      rw [List.cons_append, hasFolder_cons_of_lookup looked]
      simp only [Tree.writeAt, Tree.modify, looked, bind_eq_ok_iff, ih further]
      simp [pure, Except.pure]

theorem write_eq_ok_iff (path : Path) (text : String) (after : Tree) :
    tree.write path text = .ok after ↔
      ∃ place name entries, tree.target path = .ok (place ++ [name]) ∧
        tree.find place = .ok (.folder entries) ∧ ¬ tree.HasFolder (place ++ [name]) ∧
        tree.modify (setEntry name (.file (encodeText text))) place = after := by
  rw [Tree.write, bind_eq_ok_iff]
  constructor
  · intro written
    obtain ⟨goal, leads, written⟩ := written
    have itself : tree.SameFolders tree := fun _ => Iff.rfl
    obtain ⟨-, place, name, rfl, entries, found⟩ := target_sameFolders itself leads
    obtain ⟨free, changed⟩ := (writeAt_append _ _ _ entries found after).mp written
    exact ⟨place, name, entries, leads, found, free, changed⟩
  · intro written
    obtain ⟨place, name, entries, leads, found, free, changed⟩ := written
    exact ⟨_, leads, (writeAt_append _ _ _ entries found after).mpr ⟨free, changed⟩⟩

/-- Whether a file can be written depends on the folders alone. -/
theorem write_sameFolders (same : tree.SameFolders other) (path : Path) (text otherText : String)
    (after : Tree) (written : tree.write path text = .ok after) :
    ∃ otherAfter, other.write path otherText = .ok otherAfter := by
  obtain ⟨place, name, entries, leads, found, free, -⟩ := (write_eq_ok_iff _ _ _).mp written
  obtain ⟨others, otherFound⟩ := (same place).mp ⟨entries, found⟩
  refine ⟨_, (write_eq_ok_iff _ _ _).mpr ⟨place, name, others, ?_, otherFound, ?_, rfl⟩⟩
  · exact (target_sameFolders same leads).1
  · rwa [← same]

theorem setEntry_sameFolders (entries : List (FileName × Tree))
    (found : tree.find place = .ok (.folder entries)) (free : ¬ tree.HasFolder (place ++ [name])) :
    tree.SameFolders (tree.modify (setEntry name (.file bytes)) place) := by
  apply modify_sameFolders _ place tree entries found
  intro other inner
  rw [lookup_setEntry]
  by_cases isName : other = name
  · subst isName
    have notFolder : entries.lookup other ≠ some (.folder inner) := by
      intro looked
      apply free
      refine ⟨inner, (find_append _ _ _ _).mpr ⟨_, found, (find_cons _ _ _ _).mpr ?_⟩⟩
      exact ⟨entries, .folder inner, rfl, looked, rfl⟩
    simp [notFolder]
  · rw [if_neg isName]

theorem bytes?_of_write (path : Path) (text : String) (after : Tree)
    (written : tree.write path text = .ok after) : after.bytes? path = some (encodeText text) := by
  obtain ⟨place, name, entries, leads, found, free, rfl⟩ := (write_eq_ok_iff _ _ _).mp written
  have same := setEntry_sameFolders (encodeText text) place name entries found free
  have there := find_modify (setEntry name (.file (encodeText text))) place tree entries found
  have reads : (tree.modify (setEntry name (.file (encodeText text))) place).find
      (place ++ [name]) = .ok (.file (encodeText text)) := by
    rw [find_append]
    refine ⟨_, there, (find_cons _ _ _ _).mpr ⟨_, _, rfl, ?_, rfl⟩⟩
    rw [lookup_setEntry, if_pos rfl]
  rw [Tree.bytes?, (target_sameFolders same leads).1]
  simp [bind, Except.bind, reads]

end Write

theorem list_eq_ok_iff (tree : Tree) (path : Path) (listed : List Entry) :
    tree.list path = .ok listed ↔
      ∃ route place entries, path.route = .ok route ∧ tree.walk route = .ok place ∧
        tree.find place = .ok (.folder entries) ∧ entries.map entryOf = listed := by
  simp only [Tree.list, bind_eq_ok_iff]
  constructor
  · intro lists
    obtain ⟨route, routed, place, walks, inner, found, isListed⟩ := lists
    cases inner with
    | file bytes => cases isListed
    | folder entries =>
        exact ⟨route, place, entries, routed, walks, found, Except.ok.inj isListed⟩
  · intro lists
    obtain ⟨route, place, entries, routed, walks, found, rfl⟩ := lists
    exact ⟨route, routed, place, walks, _, found, rfl⟩

end BinaryRecord
