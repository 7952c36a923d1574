import BinaryRecord.Command.Run
import BinaryRecord.Proofs.FolderChanges

/-! The entries of a folder have names of their own, in every tree that is put together and whatever
is written to it. Main statements: `namesApart_place`, `namesApart_run` and `filter_sameFolders`. -/

namespace BinaryRecord

/-- No folder of the tree has two entries with one name. -/
def Tree.NamesApart (tree : Tree) : Prop :=
  ∀ place entries, tree.find place = .ok (.folder entries) → (entries.map Prod.fst).Nodup

theorem lookup_eq_some_iff_mem (entries : List (FileName × Tree))
    (apart : (entries.map Prod.fst).Nodup) (name : FileName) (tree : Tree) :
    entries.lookup name = some tree ↔ (name, tree) ∈ entries := by
  induction entries with
  | nil => simp
  | cons entry entries ih =>
      obtain ⟨key, inner⟩ := entry
      rw [List.map_cons, List.nodup_cons] at apart
      rw [lookup_entry, List.mem_cons]
      by_cases isKey : name = key
      · subst isKey
        have elsewhere : (name, tree) ∉ entries :=
          fun member => apart.1 (List.mem_map.mpr ⟨_, member, rfl⟩)
        simp [elsewhere, eq_comm]
      · simp [isKey, ih apart.2]

theorem namesApart_file (bytes : List UInt8) : (Tree.file bytes).NamesApart :=
  fun place entries found => absurd ⟨entries, found⟩ (not_hasFolder_file bytes place)

theorem namesApart_folder_iff (entries : List (FileName × Tree)) :
    (Tree.folder entries).NamesApart ↔
      (entries.map Prod.fst).Nodup ∧ ∀ entry ∈ entries, entry.2.NamesApart := by
  constructor
  · intro apart
    have nodup := apart [] entries rfl
    refine ⟨nodup, fun entry member place inner found => ?_⟩
    have looked := (lookup_eq_some_iff_mem entries nodup entry.1 entry.2).mpr member
    exact apart (entry.1 :: place) inner
      ((find_cons _ _ _ _).mpr ⟨entries, entry.2, rfl, looked, found⟩)
  · intro ⟨nodup, inner⟩ place others found
    cases place with
    | nil =>
        cases Except.ok.inj found
        exact nodup
    | cons name names =>
        obtain ⟨_, tree, same, looked, further⟩ := (find_cons _ _ _ _).mp found
        cases same
        have member := (lookup_eq_some_iff_mem entries nodup name tree).mp looked
        exact inner _ member names others further

theorem mem_setEntry {name : FileName} {tree : Tree} {entries : List (FileName × Tree)}
    {entry : FileName × Tree} (member : entry ∈ setEntry name tree entries) :
    entry = (name, tree) ∨ entry ∈ entries := by
  induction entries with
  | nil => exact .inl (List.mem_singleton.mp member)
  | cons other entries ih =>
      unfold setEntry at member
      split at member
      · rcases List.mem_cons.mp member with isNew | later
        · exact .inl isNew
        · exact .inr (List.mem_cons_of_mem _ later)
      · rcases List.mem_cons.mp member with isOther | later
        · exact .inr (isOther ▸ List.mem_cons_self)
        · exact (ih later).imp_right (List.mem_cons_of_mem _)

theorem nodup_setEntry (name : FileName) (tree : Tree) (entries : List (FileName × Tree))
    (nodup : (entries.map Prod.fst).Nodup) : ((setEntry name tree entries).map Prod.fst).Nodup := by
  induction entries with
  | nil => exact List.nodup_singleton name
  | cons other entries ih =>
      rw [List.map_cons, List.nodup_cons] at nodup
      unfold setEntry
      split
      · next same =>
        rw [List.map_cons, ← same]
        exact List.nodup_cons.mpr nodup
      · next differs =>
        rw [List.map_cons, List.nodup_cons]
        refine ⟨?_, ih nodup.2⟩
        intro again
        obtain ⟨entry, member, sameName⟩ := List.mem_map.mp again
        rcases mem_setEntry member with rfl | old
        · exact differs sameName.symm
        · exact nodup.1 (List.mem_map.mpr ⟨entry, old, sameName⟩)

theorem namesApart_setEntry (name : FileName) {tree : Tree} {entries : List (FileName × Tree)}
    (apart : (Tree.folder entries).NamesApart) (treeApart : tree.NamesApart) :
    (Tree.folder (setEntry name tree entries)).NamesApart := by
  rw [namesApart_folder_iff] at apart ⊢
  refine ⟨nodup_setEntry name tree entries apart.1, fun entry member => ?_⟩
  rcases mem_setEntry member with rfl | old
  · exact treeApart
  · exact apart.2 entry old

theorem namesApart_of_lookup {name : FileName} {tree : Tree} {entries : List (FileName × Tree)}
    (apart : (Tree.folder entries).NamesApart) (looked : entries.lookup name = some tree) :
    tree.NamesApart := by
  intro place inner found
  exact apart (name :: place) inner ((find_cons _ _ _ _).mpr ⟨entries, tree, rfl, looked, found⟩)

theorem namesApart_empty : Tree.empty.NamesApart :=
  (namesApart_folder_iff []).mpr ⟨List.nodup_nil, fun _ member => absurd member List.not_mem_nil⟩

theorem namesApart_place (leaf : Tree) (leafApart : leaf.NamesApart) (names : List FileName)
    (tree : Tree) (apart : tree.NamesApart) : (leaf.place names tree).NamesApart := by
  induction names generalizing tree with
  | nil => exact leafApart
  | cons name names ih =>
      cases tree with
      | file bytes => exact namesApart_setEntry name namesApart_empty (ih .empty namesApart_empty)
      | folder entries =>
          apply namesApart_setEntry name apart
          apply ih
          cases looked : entries.lookup name with
          | none => exact namesApart_empty
          | some tree => exact namesApart_of_lookup apart looked

theorem namesApart_modify (change : List (FileName × Tree) → List (FileName × Tree))
    (keeps : ∀ entries, (Tree.folder entries).NamesApart →
      (Tree.folder (change entries)).NamesApart)
    (place : List FileName) (tree : Tree) (apart : tree.NamesApart) :
    (tree.modify change place).NamesApart := by
  induction place generalizing tree with
  | nil =>
      cases tree with
      | file bytes => exact apart
      | folder entries => exact keeps entries apart
  | cons name names ih =>
      cases tree with
      | file bytes => exact apart
      | folder entries =>
          unfold Tree.modify
          cases looked : entries.lookup name with
          | none => exact apart
          | some inner =>
              exact namesApart_setEntry name apart (ih inner (namesApart_of_lookup apart looked))

theorem namesApart_write {tree after : Tree} {path : Path} {text : String}
    (apart : tree.NamesApart) (written : tree.write path text = .ok after) :
    after.NamesApart := by
  obtain ⟨place, name, entries, -, -, -, rfl⟩ := (write_eq_ok_iff _ _ _).mp written
  exact namesApart_modify _ (fun _ entriesApart =>
    namesApart_setEntry name entriesApart (namesApart_file _)) place tree apart

theorem namesApart_run (host : Host) (tree : Tree) (program : Program) (options : Options)
    (apart : tree.NamesApart) : (tree.run host program options).2.NamesApart := by
  unfold Tree.run
  dsimp only
  split
  · exact apart
  · split
    · next written => exact namesApart_write apart written
    · exact apart

section Delete

variable {tree : Tree} (place : List FileName) (entries : List (FileName × Tree))
  (found : tree.find place = .ok (.folder entries))

include found in
theorem filter_sameFolders (keep : FileName × Tree → Bool) (apart : tree.NamesApart)
    (keeps : ∀ name inner, keep (name, .folder inner) = true) :
    tree.SameFolders (tree.modify (List.filter keep) place) := by
  apply modify_sameFolders _ place tree entries found
  intro name inner
  have nodup := apart place entries found
  have still : ((entries.filter keep).map Prod.fst).Nodup :=
    nodup.sublist (List.filter_sublist.map Prod.fst)
  rw [lookup_eq_some_iff_mem _ still, lookup_eq_some_iff_mem _ nodup, List.mem_filter, keeps]
  simp

end Delete

end BinaryRecord
