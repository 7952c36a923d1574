import BinaryRecord.Folder
import BinaryRecord.Text.Encoding
import Mathlib.Data.List.Nodup

namespace BinaryRecord

def RecordFile.UpTo (first second : RecordFile) : Prop :=
  encodeText first.record < encodeText second.record ∨
    first.record = second.record ∧ first.name ≤ second.name

theorem before_iff (first second : RecordFile) :
    first.before second = true ↔ first.UpTo second := by
  simp [RecordFile.before, RecordFile.UpTo, encodeText_lt_iff]

theorem RecordFile.UpTo.trans {first second third : RecordFile} (left : first.UpTo second)
    (right : second.UpTo third) : first.UpTo third := by
  rcases left with left | ⟨sameLeft, left⟩
  · rcases right with right | ⟨sameRight, right⟩
    · exact .inl (List.lt_trans left right)
    · exact .inl (sameRight ▸ left)
  · rcases right with right | ⟨sameRight, right⟩
    · exact .inl (sameLeft ▸ right)
    · exact .inr ⟨sameLeft.trans sameRight, List.le_trans left right⟩

theorem upTo_total (first second : RecordFile) : first.UpTo second ∨ second.UpTo first := by
  rcases lt_trichotomy first.record second.record with before | same | after
  · exact .inl (.inl (encodeText_lt _ _ before))
  · rcases List.le_total first.name second.name with before | after
    · exact .inl (.inr ⟨same, before⟩)
    · exact .inr (.inr ⟨same.symm, after⟩)
  · exact .inr (.inl (encodeText_lt _ _ after))

def RecordFile.Below (first second : RecordFile) : Prop :=
  encodeText first.record < encodeText second.record

theorem below_of_differs {first second : RecordFile} (upTo : first.UpTo second)
    (differs : first.record ≠ second.record) : first.Below second :=
  upTo.resolve_right fun same => differs same.1

theorem RecordFile.Below.trans_upTo {first second third : RecordFile} (below : first.Below second)
    (upTo : second.UpTo third) : first.Below third := by
  rcases upTo with further | ⟨same, -⟩
  · exact List.lt_trans below further
  · rw [RecordFile.Below, ← same]
    exact below

section Sorted

variable (folder : Path) (files : List RecordFile) (sorted : files.Pairwise RecordFile.UpTo)

structure FirstNeighbours (files : List RecordFile) (front rest : List RecordFile)
    (first second : RecordFile) : Prop where
  place : files = front ++ first :: second :: rest
  same : first.record = second.record
  below : ∀ file ∈ front, file.Below first
  apart : front.Pairwise RecordFile.Below

theorem below_of_cons (file next : RecordFile) (later : List RecordFile)
    (sorted : (file :: next :: later).Pairwise RecordFile.UpTo)
    (differs : file.record ≠ next.record) : ∀ other ∈ next :: later, file.Below other := by
  rw [List.pairwise_cons, List.pairwise_cons] at sorted
  have below := below_of_differs (sorted.1 next (by simp)) differs
  intro other member
  rcases List.mem_cons.mp member with rfl | inside
  · exact below
  · exact below.trans_upTo (sorted.2.1 other inside)

include sorted in
theorem apart_of_duplicate?_none (none : duplicate? folder files = none) :
    files.Pairwise RecordFile.Below := by
  induction files with
  | nil => exact .nil
  | cons file files ih =>
      cases files with
      | nil => exact List.pairwise_singleton _ _
      | cons next later =>
          rw [duplicate?] at none
          split at none
          · cases none
          next differs =>
          exact List.pairwise_cons.mpr ⟨below_of_cons file next later sorted differs,
            ih (List.pairwise_cons.mp sorted).2 none⟩

include sorted in
theorem exists_firstNeighbours (fault : FolderFault) (some : duplicate? folder files = some fault) :
    ∃ front rest first second, FirstNeighbours files front rest first second ∧
      fault = .duplicate first.record (folder.join first.name) (folder.join second.name) := by
  induction files with
  | nil => cases some
  | cons file files ih =>
      cases files with
      | nil => cases some
      | cons next later =>
          rw [duplicate?] at some
          split at some
          · next same =>
            exact ⟨[], later, file, next, ⟨rfl, same, by simp, .nil⟩, (Option.some.inj some).symm⟩
          next differs =>
          obtain ⟨front, rest, first, second, found, isFault⟩ :=
            ih (List.pairwise_cons.mp sorted).2 some
          have below := below_of_cons file next later sorted differs
          rw [found.place] at below
          refine ⟨file :: front, rest, first, second, ⟨?_, found.same, ?_, ?_⟩, isFault⟩
          · rw [found.place, List.cons_append]
          · rw [List.forall_mem_cons]
            exact ⟨below first (by simp), found.below⟩
          · rw [List.pairwise_cons]
            exact ⟨fun other inside => below other (by simp [inside]), found.apart⟩

end Sorted

/-- The least record that several files define, with the two least of its files. -/
structure LeastDuplicate (files : List RecordFile) (record : String) (first second : FileName) :
    Prop where
  least : ∀ other, 2 ≤ (files.map RecordFile.record).count other →
    encodeText record ≤ encodeText other
  names : ∃ rest, ((files.filter fun file => file.record = record).map RecordFile.name).Perm
    (first :: second :: rest) ∧ first ≤ second ∧ ∀ name ∈ rest, second ≤ name

theorem LeastDuplicate.of_perm {files others : List RecordFile} {record : String}
    {first second : FileName} (least : LeastDuplicate files record first second)
    (perm : files.Perm others) : LeastDuplicate others record first second := by
  constructor
  · intro other twice
    rw [← (perm.map RecordFile.record).count_eq] at twice
    exact least.least other twice
  · obtain ⟨rest, isPerm, bounds⟩ := least.names
    exact ⟨rest, ((perm.filter _).map _).symm.trans isPerm, bounds⟩

theorem nodup_of_below (files : List RecordFile) (apart : files.Pairwise RecordFile.Below) :
    (files.map RecordFile.record).Nodup := by
  rw [List.Nodup, List.pairwise_map]
  apply apart.imp
  intro first second below same
  rw [RecordFile.Below, same] at below
  exact List.lt_irrefl _ below

theorem record_le_of_upTo {first second : RecordFile} (upTo : first.UpTo second) :
    encodeText first.record ≤ encodeText second.record := by
  rcases upTo with below | ⟨same, -⟩
  · exact List.le_of_lt below
  · rw [same]
    exact List.le_refl _

theorem name_le_of_upTo {first second : RecordFile} (upTo : first.UpTo second)
    (same : first.record = second.record) : first.name ≤ second.name := by
  rcases upTo with below | ⟨-, ordered⟩
  · rw [same] at below
    exact absurd below (List.lt_irrefl _)
  · exact ordered

/-- A lesser record occurs in front only, and there at most once. -/
theorem FirstNeighbours.least {files front rest : List RecordFile} {first second : RecordFile}
    (found : FirstNeighbours files front rest first second)
    (sorted : files.Pairwise RecordFile.UpTo) (other : String)
    (twice : 2 ≤ (files.map RecordFile.record).count other) :
    encodeText first.record ≤ encodeText other := by
  rw [found.place] at sorted twice
  obtain ⟨-, behind, -⟩ := List.pairwise_append.mp sorted
  by_contra less
  -- Everything from the neighbours on has a record at least as great as theirs.
  have absent : other ∉ (first :: second :: rest).map RecordFile.record := by
    intro present
    obtain ⟨file, member, rfl⟩ := List.mem_map.mp present
    apply less
    rcases List.mem_cons.mp member with rfl | inside
    · exact List.le_refl _
    · exact record_le_of_upTo ((List.pairwise_cons.mp behind).1 file inside)
  have once := List.nodup_iff_count_le_one.mp (nodup_of_below front found.apart) other
  rw [List.map_append, List.count_append, List.count_eq_zero_of_not_mem absent] at twice
  omega

theorem FirstNeighbours.leastDuplicate {files front rest : List RecordFile}
    {first second : RecordFile} (found : FirstNeighbours files front rest first second)
    (sorted : files.Pairwise RecordFile.UpTo) :
    LeastDuplicate files first.record first.name second.name := by
  refine ⟨found.least sorted, ?_⟩
  rw [found.place] at sorted
  obtain ⟨-, behind, -⟩ := List.pairwise_append.mp sorted
  rw [List.pairwise_cons, List.pairwise_cons] at behind
  have noFront : front.filter (fun file => file.record = first.record) = [] := by
    rw [List.filter_eq_nil_iff]
    intro file inside same
    have below := found.below file inside
    rw [RecordFile.Below, of_decide_eq_true same] at below
    exact List.lt_irrefl _ below
  refine ⟨(rest.filter fun file => file.record = first.record).map RecordFile.name, ?_, ?_, ?_⟩
  · rw [found.place, List.filter_append, noFront]
    simp [found.same]
  · exact name_le_of_upTo (behind.1 second (by simp)) found.same
  · intro name present
    obtain ⟨file, member, rfl⟩ := List.mem_map.mp present
    obtain ⟨inside, same⟩ := List.mem_filter.mp member
    have sameRecord := found.same.symm.trans (of_decide_eq_true same).symm
    exact name_le_of_upTo (behind.2.1 file inside) sameRecord

theorem duplicate?_of_below (folder : Path) (files : List RecordFile)
    (apart : files.Pairwise RecordFile.Below) : duplicate? folder files = none := by
  cases found : duplicate? folder files with
  | none => rfl
  | some fault =>
      have sorted : files.Pairwise RecordFile.UpTo := apart.imp fun below => .inl below
      obtain ⟨front, rest, first, second, neighbours, -⟩ :=
        exists_firstNeighbours folder files sorted fault found
      have nodup := nodup_of_below files apart
      rw [neighbours.place] at nodup
      simp [List.nodup_append, neighbours.same] at nodup

theorem below_of_nodup (files : List RecordFile) (sorted : files.Pairwise RecordFile.UpTo)
    (nodup : (files.map RecordFile.record).Nodup) : files.Pairwise RecordFile.Below := by
  have differ := List.pairwise_map.mp nodup
  exact (sorted.and differ).imp fun both => below_of_differs both.1 both.2

theorem least_of_perm {first other : FileName} {rest others : List FileName}
    (perm : (first :: rest).Perm (other :: others)) (below : ∀ name ∈ rest, first ≤ name)
    (otherBelow : ∀ name ∈ others, other ≤ name) : first = other ∧ rest.Perm others := by
  have same : first = other := by
    rcases List.mem_cons.mp (perm.mem_iff.mp List.mem_cons_self) with same | inside
    · exact same
    · rcases List.mem_cons.mp (perm.mem_iff.mpr List.mem_cons_self) with same | otherInside
      · exact same.symm
      · exact List.le_antisymm (below _ otherInside) (otherBelow _ inside)
  subst same
  exact ⟨rfl, (List.perm_cons first).mp perm⟩

theorem LeastDuplicate.twice {files : List RecordFile} {record : String} {first second : FileName}
    (least : LeastDuplicate files record first second) :
    2 ≤ (files.map RecordFile.record).count record := by
  obtain ⟨rest, perm, -, -⟩ := least.names
  have length : (files.filter fun file => file.record = record).length = rest.length + 2 := by
    rw [← List.length_map, perm.length_eq]
    rfl
  calc 2 ≤ rest.length + 2 := by omega
    _ = files.countP (fun file => file.record = record) := by
        rw [List.countP_eq_length_filter, length]
    _ = (files.map RecordFile.record).count record := by
        rw [List.count, List.countP_map]
        congr 1

theorem LeastDuplicate.unique {files : List RecordFile} {record otherRecord : String}
    {first second otherFirst otherSecond : FileName}
    (least : LeastDuplicate files record first second)
    (other : LeastDuplicate files otherRecord otherFirst otherSecond) :
    record = otherRecord ∧ first = otherFirst ∧ second = otherSecond := by
  have same : record = otherRecord := by
    have bytes := List.le_antisymm (least.least _ other.twice) (other.least _ least.twice)
    have decoded := decodeText?_encodeText record
    rw [bytes, decodeText?_encodeText] at decoded
    exact (Option.some.inj decoded).symm
  subst same
  obtain ⟨rest, perm, ordered, below⟩ := least.names
  obtain ⟨others, otherPerm, otherOrdered, otherBelow⟩ := other.names
  have belowFirst : ∀ name ∈ second :: rest, first ≤ name :=
    List.forall_mem_cons.mpr ⟨ordered, fun name inside => List.le_trans ordered (below name inside)⟩
  have belowOther : ∀ name ∈ otherSecond :: others, otherFirst ≤ name :=
    List.forall_mem_cons.mpr
      ⟨otherOrdered, fun name inside => List.le_trans otherOrdered (otherBelow name inside)⟩
  obtain ⟨sameFirst, tails⟩ := least_of_perm (perm.symm.trans otherPerm) belowFirst belowOther
  exact ⟨rfl, sameFirst, (least_of_perm tails below otherBelow).1⟩

end BinaryRecord
