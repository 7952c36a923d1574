import BinaryRecord.Proofs.PackingFaults

/-! The run at which packing breaks off. Main statement: `pack_error_exact`, packing fails exactly
behind fields that can be packed, at a run that is short, and in one place only. -/

namespace BinaryRecord

def firstBacking? (fields : List Field) : Option Numeric := fields.head?.bind Field.backing?

structure ShortRun (backing : Numeric) (width : Nat) (run : List Field) : Prop where
  wide : backing.bitWidth? = some width
  all : ∀ flag ∈ run, flag.backing? = some backing
  short : run.length < width

/-- What cannot be packed from a place on: a run that just ends, a run that meets a flag of another
backing, or a flag whose backing has no bits. -/
inductive BreaksOff (place : Nat) : List Field → List Field → PlacedFault → Prop
  | unfinished {backing : Numeric} {width : Nat} {run rest : List Field}
      (isRun : ShortRun backing width run) (nonempty : run ≠ [])
      (ends : firstBacking? rest = none) :
      BreaksOff place run rest ⟨place, .unfinishedRun run.length width⟩
  | mixed {backing found : Numeric} {width : Nat} {run rest : List Field}
      (isRun : ShortRun backing width run) (nonempty : run ≠ [])
      (next : firstBacking? rest = some found) (differs : found ≠ backing) :
      BreaksOff place run rest ⟨place + run.length, .mixedRun backing found⟩
  | noBits {rest : List Field} (next : firstBacking? rest = some .float) :
      BreaksOff place [] rest ⟨place, .cannotBack "Float"⟩

structure Split where
  front : List Field
  run : List Field
  rest : List Field

structure Split.Breaks (split : Split) (fields : List Field) (placed : PlacedFault) : Prop where
  whole : fields = split.front ++ (split.run ++ split.rest)
  packs : ∃ members, pack split.front = .ok members
  breaks : BreaksOff split.front.length split.run split.rest placed

theorem firstBacking?_drop (fields : List Field) (place : Nat) :
    firstBacking? (fields.drop place) = fields[place]?.bind Field.backing? := by
  rw [firstBacking?, List.head?_drop]

theorem firstBacking?_append (fields back : List Field) (nonempty : fields ≠ []) :
    firstBacking? (fields ++ back) = firstBacking? fields := by
  cases fields with
  | nil => exact absurd rfl nonempty
  | cons field fields => rfl

theorem leadingRun_eq_nil_iff (backing : Numeric) (width : Nat) (fields : List Field)
    (positive : 0 < width) :
    leadingRun backing width fields = [] ↔ firstBacking? fields ≠ some backing := by
  obtain ⟨count, rfl⟩ : ∃ count, width = count + 1 := ⟨width - 1, by omega⟩
  cases fields with
  | nil => simp [leadingRun, firstBacking?]
  | cons field fields =>
      rw [leadingRun, List.take_succ_cons, List.takeWhile_cons]
      by_cases same : field.backing? = some backing
      · simp [firstBacking?, same]
      · simp [firstBacking?, same]

theorem firstBacking?_of_short (backing : Numeric) (width : Nat) (fields : List Field)
    (short : (leadingRun backing width fields).length < width) :
    firstBacking? (fields.drop (leadingRun backing width fields).length) ≠ some backing := by
  have parts := leadingRun_append_drop backing width fields
  have goesOn := leadingRun_append backing width (leadingRun backing width fields)
    (fields.drop (leadingRun backing width fields).length)
    (backing?_of_mem_leadingRun backing width fields) (Nat.le_of_lt short)
  rw [parts] at goesOn
  apply (leadingRun_eq_nil_iff backing _ _ (Nat.sub_pos_of_lt short)).mp
  exact List.self_eq_append_right.mp goesOn

theorem leadingRun_of_shortRun (backing : Numeric) (width : Nat) (run rest : List Field)
    (isRun : ShortRun backing width run) (ends : firstBacking? rest ≠ some backing) :
    leadingRun backing width (run ++ rest) = run := by
  have none := (leadingRun_eq_nil_iff backing _ rest (Nat.sub_pos_of_lt isRun.short)).mpr ends
  rw [leadingRun_append backing width run rest isRun.all (Nat.le_of_lt isRun.short), none,
    List.append_nil]

theorem packFrom_of_shortRun (index ordinal : Nat) (backing : Numeric) (width : Nat)
    (run rest : List Field) (isRun : ShortRun backing width run) (nonempty : run ≠ [])
    (ends : firstBacking? rest ≠ some backing) :
    packFrom index ordinal (run ++ rest) =
      .error (runFault index backing width run.length rest.head?) := by
  have leading := leadingRun_of_shortRun backing width run rest isRun ends
  have next : (run ++ rest)[run.length]? = rest.head? := by
    rw [List.getElem?_append_right (Nat.le_refl _), Nat.sub_self, List.head?_eq_getElem?]
  cases run with
  | nil => exact absurd rfl nonempty
  | cons flag later =>
      have isFlag := isRun.all flag (by simp)
      rw [List.cons_append] at leading next ⊢
      rw [packFrom_short index ordinal flag _ backing width isFlag isRun.wide
        (leading.symm ▸ Nat.ne_of_lt isRun.short), leading, next]

theorem packFrom_of_breaksOff (index ordinal : Nat) (run rest : List Field) (placed : PlacedFault)
    (breaks : BreaksOff index run rest placed) :
    packFrom index ordinal (run ++ rest) = .error placed := by
  cases breaks with
  | @unfinished backing width _ _ isRun nonempty ends =>
      have next : rest.head?.bind Field.backing? = none := ends
      rw [packFrom_of_shortRun index ordinal backing width run rest isRun nonempty (by simp [ends]),
        runFault, next]
  | @mixed backing found width _ _ isRun nonempty starts differs =>
      have next : rest.head?.bind Field.backing? = some found := starts
      rw [packFrom_of_shortRun index ordinal backing width run rest isRun nonempty
        (by simp [starts, differs]), runFault, next]
  | noBits starts =>
      cases rest with
      | nil => cases starts
      | cons field rest => exact packFrom_noWidth index ordinal field rest .float starts rfl

theorem breaksOff_of_short (index : Nat) (backing : Numeric) (width : Nat) (fields : List Field)
    (wide : backing.bitWidth? = some width) (starts : firstBacking? fields = some backing)
    (short : (leadingRun backing width fields).length ≠ width) :
    BreaksOff index (leadingRun backing width fields)
      (fields.drop (leadingRun backing width fields).length)
      (runFault index backing width (leadingRun backing width fields).length
        fields[(leadingRun backing width fields).length]?) := by
  have positive := backing.bitWidth?_pos width wide
  have less := Nat.lt_of_le_of_ne (leadingRun_length_le backing width fields) short
  have isRun : ShortRun backing width (leadingRun backing width fields) :=
    ⟨wide, backing?_of_mem_leadingRun backing width fields, less⟩
  have nonempty : leadingRun backing width fields ≠ [] := by
    rw [Ne, leadingRun_eq_nil_iff backing width fields positive, not_not]
    exact starts
  have differs := firstBacking?_of_short backing width fields less
  rw [runFault, ← firstBacking?_drop]
  cases next : firstBacking? (fields.drop (leadingRun backing width fields).length) with
  | none => exact .unfinished isRun nonempty next
  | some found =>
      rw [next, Ne, Option.some.injEq] at differs
      exact .mixed isRun nonempty next differs

theorem exists_split_of_packFrom (index ordinal : Nat) (fields : List Field) (placed : PlacedFault)
    (failed : packFrom index ordinal fields = .error placed) :
    ∃ members run rest, WellPackedFrom ordinal members ∧
      fields = flatten members ++ (run ++ rest) ∧
      BreaksOff (index + (flatten members).length) run rest placed := by
  fun_induction packFrom index ordinal fields with
  | case1 index ordinal => cases failed
  | case2 index ordinal field rest noFlag ih =>
      rw [map_eq_error_iff] at failed
      rcases ih failed with ⟨members, run, behind, packed, rfl, breaks⟩
      refine ⟨.plain field :: members, run, behind, ⟨noFlag, packed⟩, rfl, ?_⟩
      rwa [flatten_cons, List.length_append, ← Nat.add_assoc]
  | case3 index ordinal field rest backing flag noWidth =>
      cases failed
      rw [Numeric.bitWidth?_eq_none_iff] at noWidth
      subst noWidth
      exact ⟨[], [], field :: rest, trivial, rfl, .noBits flag⟩
  | case4 index ordinal field rest backing flag width wide run full ih =>
      rw [map_eq_error_iff] at failed
      rcases ih failed with ⟨members, short, behind, packed, later, breaks⟩
      have all := backing?_of_mem_leadingRun backing width (field :: rest)
      refine ⟨.packed (.ofRun ordinal backing run) :: members, short, behind,
        ⟨rfl, ⟨rfl, wide.trans (congrArg some full.symm), all⟩, packed⟩, ?_, ?_⟩
      · rw [flatten_cons, List.append_assoc, ← later]
        exact (leadingRun_append_rest backing width field rest wide full).symm
      · have place : (Member.packed (.ofRun ordinal backing run)).fields.length = width := full
        rwa [flatten_cons, List.length_append, place, ← Nat.add_assoc]
  | case5 index ordinal field rest backing flag width wide run short =>
      cases failed
      have parts := leadingRun_append_drop backing width (field :: rest)
      exact ⟨[], run, (field :: rest).drop run.length, trivial, parts.symm,
        breaksOff_of_short index backing width (field :: rest) wide flag short⟩

theorem Split.Breaks.pack_eq {split : Split} {fields : List Field} {placed : PlacedFault}
    (breaks : split.Breaks fields placed) : pack fields = .error placed := by
  rcases breaks.packs with ⟨members, packs⟩
  rcases pack_sound split.front members packs with ⟨packed, flat⟩
  have broken := packFrom_of_breaksOff (0 + split.front.length)
    (0 + (members.filterMap Member.packed?).length) split.run split.rest placed
    (by rw [Nat.zero_add]; exact breaks.breaks)
  rw [pack, breaks.whole, ← flat, packFrom_flatten_append 0 0 members _ packed, flat, broken]
  rfl

theorem pack_eq_error_iff (fields : List Field) (placed : PlacedFault) :
    pack fields = .error placed ↔ ∃ split : Split, split.Breaks fields placed := by
  constructor
  · intro failed
    rcases exists_split_of_packFrom 0 0 fields placed failed with
      ⟨members, run, rest, packed, whole, breaks⟩
    rw [Nat.zero_add] at breaks
    exact ⟨⟨flatten members, run, rest⟩, whole, ⟨members, pack_flatten members packed⟩, breaks⟩
  · rintro ⟨split, breaks⟩
    exact breaks.pack_eq

theorem ne_nil_of_firstBacking? {fields : List Field} {found : Numeric}
    (starts : firstBacking? fields = some found) : fields ≠ [] := by
  rintro rfl
  cases starts

theorem BreaksOff.index_lt {place : Nat} {run rest : List Field} {placed : PlacedFault}
    (breaks : BreaksOff place run rest placed) :
    placed.index < place + (run.length + rest.length) := by
  cases breaks with
  | unfinished isRun nonempty =>
      have positive := List.length_pos_iff.mpr nonempty
      simp only
      omega
  | mixed isRun nonempty next =>
      have positive := List.length_pos_iff.mpr (ne_nil_of_firstBacking? next)
      simp only
      omega
  | noBits next =>
      have positive := List.length_pos_iff.mpr (ne_nil_of_firstBacking? next)
      simp only [List.length_nil]
      omega

theorem pack_error_bound (fields : List Field) (placed : PlacedFault)
    (failed : pack fields = .error placed) : placed.index < fields.length := by
  rcases (pack_eq_error_iff fields placed).mp failed with ⟨split, breaks⟩
  rw [breaks.whole, List.length_append, List.length_append]
  exact breaks.breaks.index_lt

theorem ShortRun.left {backing : Numeric} {width : Nat} {front back : List Field}
    (isRun : ShortRun backing width (front ++ back)) : ShortRun backing width front := by
  have short := isRun.short
  rw [List.length_append] at short
  exact ⟨isRun.wide, fun flag inside => isRun.all flag (List.mem_append_left back inside), by omega⟩

theorem eq_nil_of_packs (front run : List Field) (backing : Numeric) (width : Nat)
    (isRun : ShortRun backing width run) (packs : ∃ members, pack front = .ok members)
    (longer : ∃ members, pack (front ++ run) = .ok members) : run = [] := by
  by_contra nonempty
  rcases longer with ⟨members, packed⟩
  have breaks : Split.Breaks ⟨front, run, []⟩ (front ++ run)
      ⟨front.length, .unfinishedRun run.length width⟩ :=
    ⟨by rw [List.append_nil], packs, .unfinished isRun nonempty rfl⟩
  rw [breaks.pack_eq] at packed
  cases packed

/-- One fault tells the place and the length of the run, or, of a run that meets another backing,
its backing and its end. -/
theorem BreaksOff.run_of_fault {place other : Nat} {run rest otherRun otherRest : List Field}
    {placed otherPlaced : PlacedFault} (breaks : BreaksOff place run rest placed)
    (otherBreaks : BreaksOff other otherRun otherRest otherPlaced) (same : placed = otherPlaced) :
    place = other ∧ run.length = otherRun.length ∨
      place + run.length = other + otherRun.length ∧
        ∃ backing width, ShortRun backing width run ∧ ShortRun backing width otherRun := by
  cases breaks with
  | unfinished =>
      cases otherBreaks with
      | unfinished =>
          simp only [PlacedFault.mk.injEq, Fault.unfinishedRun.injEq] at same
          exact .inl ⟨same.1, same.2.1⟩
      | _ => simp at same
  | mixed isRun =>
      cases otherBreaks with
      | mixed otherIsRun =>
          simp only [PlacedFault.mk.injEq, Fault.mixedRun.injEq] at same
          rcases same with ⟨ends, rfl, rfl⟩
          have width := Option.some.inj (isRun.wide.symm.trans otherIsRun.wide)
          exact .inr ⟨ends, _, _, isRun, width ▸ otherIsRun⟩
      | _ => simp at same
  | noBits =>
      cases otherBreaks with
      | noBits =>
          simp only [PlacedFault.mk.injEq, and_true] at same
          exact .inl ⟨same, rfl⟩
      | _ => simp at same

theorem Split.breaks_unique (first second : Split) (fields : List Field)
    (placed other : PlacedFault) (breaks : first.Breaks fields placed)
    (otherBreaks : second.Breaks fields other) : first = second := by
  have same : placed = other :=
    Except.error.inj (breaks.pack_eq.symm.trans otherBreaks.pack_eq)
  rcases first with ⟨front, run, rest⟩
  rcases second with ⟨otherFront, otherRun, otherRest⟩
  have whole := breaks.whole.symm.trans otherBreaks.whole
  simp only at whole
  rcases breaks.breaks.run_of_fault otherBreaks.breaks same with
    ⟨place, length⟩ | ⟨ends, backing, width, isRun, otherIsRun⟩
  · rcases List.append_inj whole place with ⟨rfl, behind⟩
    rcases List.append_inj behind length with ⟨rfl, rfl⟩
    rfl
  · rw [← List.append_assoc, ← List.append_assoc] at whole
    rcases List.append_inj whole (by simpa using ends) with ⟨upTo, rfl⟩
    have packs := breaks.packs
    have otherPacks := otherBreaks.packs
    rcases List.append_eq_append_iff.mp upTo with ⟨more, rfl, rfl⟩ | ⟨more, rfl, rfl⟩
    · rcases eq_nil_of_packs front more backing width isRun.left packs otherPacks with rfl
      simp
    · rcases eq_nil_of_packs otherFront more backing width otherIsRun.left otherPacks packs with rfl
      simp

/-- Packing fails where what can be packed is followed by a run that is short, and fails there only.
A run that ends is blamed at its start, one that goes on with another backing at the odd flag. -/
theorem pack_error_exact (fields : List Field) :
    (∀ placed, pack fields = .error placed ↔ ∃ split : Split, split.Breaks fields placed) ∧
      (∀ (first second : Split) (placed other : PlacedFault), first.Breaks fields placed →
        second.Breaks fields other → first = second) ∧
      ∀ placed, pack fields = .error placed → placed.index < fields.length := by
  refine ⟨pack_eq_error_iff fields, ?_, pack_error_bound fields⟩
  intro first second placed other
  exact Split.breaks_unique first second fields placed other

def wordFields : List Field := List.replicate 8 ⟨"on", .flag .u8 1⟩

def brokenFields : List Field :=
  wordFields ++ [⟨"off", .flag .u16 3⟩, ⟨"rate", .flag .float 1⟩]

def brokenSplit : Split := ⟨wordFields, [⟨"off", .flag .u16 3⟩], [⟨"rate", .flag .float 1⟩]⟩

theorem pack_error_exact_broken :
    brokenSplit.Breaks brokenFields ⟨9, .mixedRun .u16 .float⟩ ∧
      pack brokenFields = .error ⟨9, .mixedRun .u16 .float⟩ ∧
      (∀ split placed, split.Breaks brokenFields placed → split = brokenSplit) ∧
      9 < brokenFields.length := by
  rcases pack_error_exact brokenFields with ⟨exactly, unique, bound⟩
  have isRun : ShortRun .u16 16 brokenSplit.run := ⟨rfl, by decide, by decide⟩
  have breaks : brokenSplit.Breaks brokenFields ⟨9, .mixedRun .u16 .float⟩ :=
    ⟨rfl, ⟨[.packed (.ofRun 0 .u8 wordFields)], by decide +kernel⟩,
      .mixed isRun (by decide) rfl (by decide)⟩
  have failed := (exactly _).mpr ⟨brokenSplit, breaks⟩
  exact ⟨breaks, failed, fun split placed others => unique split brokenSplit placed _ others breaks,
    bound _ failed⟩

end BinaryRecord
