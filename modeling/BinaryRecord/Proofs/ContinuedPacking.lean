import BinaryRecord.Proofs.BrokenRuns

namespace BinaryRecord

def Member.renumber (more : Nat) : Member → Member
  | .plain field => .plain field
  | .packed word =>
      .packed { word with
        name := "bitfield" ++ decimal (word.ordinal + more)
        ordinal := word.ordinal + more }

/-- The fault of a run that the end of the fields cuts off. -/
def PlacedFault.AtEnd (placed : PlacedFault) (fields : List Field) : Prop :=
  ∃ count capacity, placed.fault = .unfinishedRun count capacity ∧
    placed.index + count = fields.length

theorem flatten_renumber (more : Nat) (members : List Member) :
    flatten (members.map (Member.renumber more)) = flatten members := by
  have kept (member : Member) : (member.renumber more).fields = member.fields := by
    cases member <;> rfl
  simp only [flatten, List.flatMap_map, kept]

theorem WellPackedFrom.renumber (ordinal more : Nat) (members : List Member)
    (packed : WellPackedFrom ordinal members) :
    WellPackedFrom (ordinal + more) (members.map (Member.renumber more)) := by
  induction members generalizing ordinal with
  | nil => trivial
  | cons first members ih =>
      cases first with
      | plain field => exact ⟨packed.1, ih ordinal packed.2⟩
      | packed word =>
          obtain ⟨own, ⟨-, wide, all⟩, packed⟩ := packed
          have later := ih (ordinal + 1) packed
          rw [Nat.add_right_comm] at later
          exact ⟨congrArg (· + more) own, ⟨rfl, wide, all⟩, later⟩

theorem pack_append_of_ok (members later : List Member) (back : List Field)
    (packed : WellPacked members) (laterPacked : pack back = .ok later) :
    pack (flatten members ++ back) =
      .ok (members ++ later.map
        (Member.renumber (members.filterMap Member.packed?).length)) := by
  rcases pack_sound back later laterPacked with ⟨laterWell, rfl⟩
  have renumbered := WellPackedFrom.renumber 0 (members.filterMap Member.packed?).length later
    laterWell
  have alone := packFrom_flatten (0 + (flatten members).length) _ _ renumbered
  rw [flatten_renumber] at alone
  rw [pack, packFrom_flatten_append 0 0 members _ packed, alone]
  rfl

theorem pack_append_of_error (members : List Member) (back : List Field) (placed : PlacedFault)
    (packed : WellPacked members) (failed : pack back = .error placed) :
    pack (flatten members ++ back) = .error (placed.shift (flatten members).length) := by
  rw [← failure?_eq_some_iff] at failed ⊢
  rw [failure?_pack_append members back packed, failed, Option.map_some]

theorem BreaksOff.append {place : Nat} {run rest : List Field} {placed : PlacedFault}
    (breaks : BreaksOff place run rest placed) (back : List Field) (nonempty : rest ≠ []) :
    BreaksOff place run (rest ++ back) placed := by
  have start := firstBacking?_append rest back nonempty
  cases breaks with
  | unfinished isRun runNonempty ends => exact .unfinished isRun runNonempty (start.trans ends)
  | mixed isRun runNonempty next differs =>
      exact .mixed isRun runNonempty (start.trans next) differs
  | noBits next => exact .noBits (start.trans next)

theorem Split.Breaks.append {split : Split} {fields : List Field} {placed : PlacedFault}
    (breaks : split.Breaks fields placed) (back : List Field) (nonempty : split.rest ≠ []) :
    Split.Breaks ⟨split.front, split.run, split.rest ++ back⟩ (fields ++ back) placed := by
  refine ⟨?_, breaks.packs, breaks.breaks.append back nonempty⟩
  rw [breaks.whole, List.append_assoc, List.append_assoc]

theorem Split.Breaks.not_atEnd {split : Split} {fields : List Field} {placed : PlacedFault}
    (breaks : split.Breaks fields placed) (nonempty : split.rest ≠ []) : ¬ placed.AtEnd fields := by
  rcases split with ⟨front, run, rest⟩
  rcases breaks with ⟨whole, -, breaks⟩
  rintro ⟨count, capacity, isUnfinished, ends⟩
  cases breaks with
  | unfinished isRun runNonempty next =>
      have positive : 0 < rest.length := List.length_pos_iff.mpr nonempty
      simp only [Fault.unfinishedRun.injEq] at isUnfinished
      simp only [whole, List.length_append] at ends
      omega
  | mixed => cases isUnfinished
  | noBits => cases isUnfinished

theorem BreaksOff.unfinished_of_nil {place : Nat} {run : List Field} {placed : PlacedFault}
    (breaks : BreaksOff place run [] placed) :
    ∃ backing width, ShortRun backing width run ∧
      placed = ⟨place, .unfinishedRun run.length width⟩ := by
  cases breaks with
  | unfinished isRun => exact ⟨_, _, isRun, rfl⟩
  | mixed isRun nonempty next => cases next
  | noBits next => cases next

def fillers (backing : Numeric) (count : Nat) : List Field :=
  List.replicate count ⟨"", .flag backing 0⟩

theorem pack_filled (backing : Numeric) (width : Nat) (run : List Field)
    (isRun : ShortRun backing width run) :
    pack (run ++ fillers backing (width - run.length)) =
      .ok [.packed (.ofRun 0 backing (run ++ fillers backing (width - run.length)))] := by
  have count : (run ++ fillers backing (width - run.length)).length = width := by
    have short := isRun.short
    simp only [fillers, List.length_append, List.length_replicate]
    omega
  have all : ∀ flag ∈ run ++ fillers backing (width - run.length),
      flag.backing? = some backing := by
    intro flag inside
    rcases List.mem_append.mp inside with inRun | added
    · exact isRun.all flag inRun
    · rw [(List.mem_replicate.mp added).2]
      rfl
  have whole := packFrom_word 0 0 backing _ [] (count.symm ▸ isRun.wide) all
  rwa [List.append_nil, packFrom] at whole

theorem exists_filled (front run : List Field) (backing : Numeric) (width : Nat)
    (packs : ∃ members, pack front = .ok members) (isRun : ShortRun backing width run) :
    ∃ back members, pack (front ++ run ++ back) = .ok members := by
  rcases packs with ⟨members, packs⟩
  rcases pack_sound front members packs with ⟨packed, rfl⟩
  have filled := pack_append_of_ok members _ _ packed (pack_filled backing width run isRun)
  rw [← List.append_assoc] at filled
  exact ⟨_, _, filled⟩

/-- Fields behind packed ones are packed as they are alone, with later places and ordinals. A run
that is cut off by the end can still be filled, and every other fault stays whatever follows. -/
theorem pack_continues (front : List Field) :
    (∀ members, pack front = .ok members → ∀ back,
      (∀ later, pack back = .ok later → pack (front ++ back) =
        .ok (members ++ later.map
          (Member.renumber (members.filterMap Member.packed?).length))) ∧
      ∀ placed, pack back = .error placed →
        pack (front ++ back) = .error (placed.shift front.length)) ∧
    ∀ placed, pack front = .error placed →
      placed.AtEnd front ∧ (∃ back members, pack (front ++ back) = .ok members) ∨
        ¬ placed.AtEnd front ∧ ∀ back, pack (front ++ back) = .error placed := by
  constructor
  · intro members packs back
    rcases pack_sound front members packs with ⟨packed, rfl⟩
    constructor
    · intro later laterPacked
      exact pack_append_of_ok members later back packed laterPacked
    · intro placed failed
      exact pack_append_of_error members back placed packed failed
  · intro placed failed
    rcases (pack_eq_error_iff front placed).mp failed with ⟨⟨start, run, rest⟩, breaks⟩
    by_cases atEnd : rest = []
    · subst atEnd
      rcases breaks.breaks.unfinished_of_nil with ⟨backing, width, isRun, rfl⟩
      have whole : front = start ++ run := by simpa using breaks.whole
      subst whole
      refine .inl ⟨⟨run.length, width, rfl, List.length_append.symm⟩, ?_⟩
      exact exists_filled start run backing width breaks.packs isRun
    · refine .inr ⟨breaks.not_atEnd atEnd, ?_⟩
      intro back
      exact (breaks.append back atEnd).pack_eq

theorem pack_continues_sample :
    pack (wordFields ++ wordFields) =
        .ok [.packed (.ofRun 0 .u8 wordFields), .packed (.ofRun 1 .u8 wordFields)] ∧
      pack (wordFields ++ brokenFields) = .error ⟨17, .mixedRun .u16 .float⟩ ∧
      (∃ back members, pack (wordFields.take 3 ++ back) = .ok members) ∧
      ∀ back, pack (brokenFields ++ back) = .error ⟨9, .mixedRun .u16 .float⟩ := by
  have packs : pack wordFields = .ok [.packed (.ofRun 0 .u8 wordFields)] := by decide +kernel
  have short : pack (wordFields.take 3) = .error ⟨0, .unfinishedRun 3 8⟩ := by decide +kernel
  have broken : pack brokenFields = .error ⟨9, .mixedRun .u16 .float⟩ := by decide +kernel
  have behind := (pack_continues wordFields).1 _ packs
  refine ⟨(behind wordFields).1 _ packs, (behind brokenFields).2 _ broken, ?_, ?_⟩
  · rcases (pack_continues (wordFields.take 3)).2 _ short with ⟨-, filled⟩ | ⟨notAtEnd, -⟩
    · exact filled
    · exact absurd ⟨3, 8, rfl, rfl⟩ notAtEnd
  · rcases (pack_continues brokenFields).2 _ broken with ⟨atEnd, -⟩ | ⟨-, final⟩
    · rcases atEnd with ⟨count, capacity, isUnfinished, -⟩
      cases isUnfinished
    · exact final

end BinaryRecord
