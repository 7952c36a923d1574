import BinaryRecord.Host.Standard
import BinaryRecord.Proofs.EntryNames
import BinaryRecord.Proofs.FolderRecords
import BinaryRecord.Proofs.RejectedRecords

namespace BinaryRecord

def Selection.defines (selection : Selection) (records : List String) (entry : FileName × Tree) :
    Bool :=
  (selection.kept? (entryOf entry)).any fun file => file.record ∈ records

def Selection.without (selection : Selection) (records : List String)
    (entries : List (FileName × Tree)) : List (FileName × Tree) :=
  entries.filter fun entry => !selection.defines records entry

/-- Deletes the files of a folder that define one of these records. -/
def Tree.deleteRecords (tree : Tree) (options : Options) (records : List String) : Tree :=
  match options.folder.route >>= tree.walk with
  | .ok place => tree.modify (options.selection.without records) place
  | .error _ => tree

section Delete

variable (selection : Selection) (records : List String)

theorem defines_folder (name : FileName) (entries : List (FileName × Tree)) :
    selection.defines records (name, .folder entries) = false := rfl

theorem kept_filter (entries : List (FileName × Tree)) :
    selection.kept ((selection.without records entries).map entryOf) =
      (selection.kept (entries.map entryOf)).filter fun file => file.record ∉ records := by
  simp only [Selection.kept, Selection.without, List.filterMap_map, List.filterMap_filter,
    List.filter_filterMap]
  apply List.filterMap_congr
  intro entry _
  simp only [Function.comp, Selection.defines]
  obtain none | ⟨file, kept⟩ := Option.eq_none_or_eq_some (selection.kept? (entryOf entry))
  · simp [none]
  · by_cases defined : file.record ∈ records <;>
      simp [kept, defined, Option.filter]

theorem loadRecords_of_kept_filter (folder : Path) (listed others : List Entry)
    (sources : List RecordSource)
    (loads : (loadRecords selection folder (.ok listed)).result = .ok sources)
    (perm : (selection.kept others).Perm
      ((selection.kept listed).filter fun file => file.record ∉ records)) :
    (loadRecords selection folder (.ok others)).result =
      .ok (sources.filter fun source => source.name ∉ records) := by
  have apart := below_files_of_loads selection folder listed sources loads
  have filtered := perm.trans ((perm_files selection listed).symm.filter _)
  have same := files_eq_of_perm selection others _ filtered (apart.filter _)
  rw [loadRecords_of_below selection folder listed _ rfl apart] at loads
  rw [loadRecords_of_below selection folder others _ same (apart.filter _)]
  exact readRecordFiles_filter folder (fun record => record ∉ records) _ sources loads

end Delete

theorem exists_of_list {host : Host} {tree : Tree} {path : Path} {listed : List Entry}
    (lists : host.list tree path = .ok listed) :
    ∃ held, tree.list path = .ok held ∧ listed.Perm held := by
  unfold Host.list at lists
  cases holds : tree.list path with
  | error fault =>
      rw [holds] at lists
      cases lists
  | ok held =>
      rw [holds] at lists
      cases lists
      exact ⟨held, rfl, host.listed_perm held⟩

theorem list_of_held {tree : Tree} {path : Path} {held : List Entry} (host : Host)
    (holds : tree.list path = .ok held) : host.list tree path = .ok (host.listed held) := by
  rw [Host.list, holds]
  rfl

section Tree

variable (tree : Tree) (options : Options) (records : List String) (apart : tree.NamesApart)

include apart in
theorem deleteRecords_spec (held : List Entry) (holds : tree.list options.folder = .ok held) :
    tree.SameFolders (tree.deleteRecords options records) ∧
    ∃ others, (tree.deleteRecords options records).list options.folder = .ok others ∧
      options.selection.kept others =
        (options.selection.kept held).filter fun file => file.record ∉ records := by
  obtain ⟨route, place, entries, routed, walks, found, rfl⟩ := (list_eq_ok_iff _ _ _).mp holds
  have leads : options.folder.route >>= tree.walk = .ok place :=
    (bind_eq_ok_iff _ _ _).mpr ⟨route, routed, walks⟩
  rw [Tree.deleteRecords, leads]
  have same : tree.SameFolders (tree.modify (options.selection.without records) place) :=
    filter_sameFolders place entries found _ apart
      fun name inner => by rw [defines_folder]; rfl
  have walksOn := walk_sameFolders same route [] place walks ⟨entries, found⟩
  have there := find_modify (options.selection.without records) place tree entries found
  have holdsOn := (list_eq_ok_iff _ _ _).mpr ⟨route, place, _, routed, walksOn, there, rfl⟩
  exact ⟨same, _, holdsOn, kept_filter options.selection records entries⟩

theorem deleteRecords_listed {host : Host} {listed : List Entry}
    (lists : host.list tree options.folder = .ok listed) (apart : tree.NamesApart) (later : Host) :
    tree.SameFolders (tree.deleteRecords options records) ∧
    ∃ others, later.list (tree.deleteRecords options records) options.folder = .ok others ∧
      (options.selection.kept others).Perm
        ((options.selection.kept listed).filter fun file => file.record ∉ records) := by
  obtain ⟨held, holds, perm⟩ := exists_of_list lists
  obtain ⟨same, left, holdsOn, kept⟩ := deleteRecords_spec tree options records apart held holds
  refine ⟨same, later.listed left, list_of_held later holdsOn, ?_⟩
  have keptHeld : (options.selection.kept held).Perm (options.selection.kept listed) :=
    perm.symm.filterMap _
  calc (options.selection.kept (later.listed left)).Perm (options.selection.kept left) :=
        (later.listed_perm left).filterMap _
    _ = (options.selection.kept held).filter fun file => file.record ∉ records := kept
    List.Perm _ ((options.selection.kept listed).filter fun file => file.record ∉ records) :=
        keptHeld.filter _

end Tree

def Options.shown (options : Options) (events : List Event) : List Event :=
  events.filter fun event => (options.least .records).rank ≤ event.level.rank

/-- What a run leaves as its output: a file where one was asked for. -/
def Options.output? (options : Options) (ends : Outcome × Tree) : Option (List UInt8) :=
  match options.output with
  | none => some (encodeText ends.1.stdout)
  | some path => ends.2.bytes? path

theorem target_readRecordFiles (folder : Path) (files : List RecordFile) :
    ∀ event ∈ (readRecordFiles folder files).events, event.target = "fieldlayout::catalog" := by
  induction files with
  | nil => simp [readRecordFiles]
  | cons file files ih =>
      rw [readRecordFiles]
      cases file.text with
      | error fault => simp
      | ok text => exact List.forall_mem_cons.mpr ⟨rfl, ih⟩

theorem target_loadRecords (selection : Selection) (folder : Path) (listing : Listing) :
    ∀ event ∈ (loadRecords selection folder listing).events,
      event.target = "fieldlayout::catalog" := by
  cases listing with
  | error fault => simp [loadRecords, Listing.load]
  | ok entries =>
      intro event member
      rcases List.mem_append.mp member with passedOver | loaded
      · obtain ⟨entry, -, isEvent⟩ := List.mem_filterMap.mp passedOver
        unfold Selection.event? at isEvent
        split at isEvent <;> cases isEvent <;> rfl
      · unfold loadRecordFiles at loaded
        split at loaded
        · cases loaded
        · dsimp only at loaded
          split at loaded
          · exact target_readRecordFiles folder _ event loaded
          · rcases List.mem_append.mp loaded with read | last
            · exact target_readRecordFiles folder _ event read
            · cases List.mem_singleton.mp last
              rfl

theorem target_builtEvents (sources : List RecordSource) :
    ∀ event ∈ builtEvents sources, event.target = "fieldlayout::layout" := by
  intro event member
  obtain ⟨source, -, isEvent⟩ := List.mem_filterMap.mp member
  obtain ⟨record, -, rfl⟩ := Option.map_eq_some_iff.mp isEvent
  rfl

def Host.eventsBefore (host : Host) (options : Options) (listing : Listing)
    (sources : List RecordSource) : List Event :=
  (loadRecords options.selection options.folder listing).events ++
    host.finished (builtEvents sources)

theorem target_eventsBefore (host : Host) (options : Options) (listing : Listing)
    (sources : List RecordSource) :
    ∀ event ∈ options.shown (host.eventsBefore options listing sources),
      event.target ≠ "compile_defs" := by
  intro event member
  rcases List.mem_append.mp (List.mem_filter.mp member).1 with loading | building
  · rw [target_loadRecords _ _ _ event loading]
    decide
  · have inside := (host.finished_perm _).mem_iff.mp building
    rw [target_builtEvents sources event inside]
    decide

theorem draftRecords_of_loads (host : Host) (options : Options) (listing : Listing)
    (sources : List RecordSource)
    (loads : (loadRecords options.selection options.folder listing).result = .ok sources) :
    draftRecords host options listing =
      ⟨host.eventsBefore options listing sources ++ (rejections sources).map .rejected ++
          [.summary (builtRecords sources).length (rejections sources).length],
        .ok (options.format.render host.quote (builtRecords sources)),
        (rejections sources).length⟩ := by
  simp only [draftRecords, loads, Host.eventsBefore]

theorem least_rank_le (options : Options) :
    (options.least .records).rank ≤ Level.warn.rank ∧
      ((options.least .records).rank ≤ Level.info.rank ↔ options.verbosity ≠ 0) := by
  unfold Options.least
  split_ifs with silent some <;> simp [Level.rank, silent]

theorem shown_rejected (options : Options) (rejected : List Rejection) :
    options.shown (rejected.map .rejected) = rejected.map .rejected := by
  apply List.filter_eq_self.mpr
  intro event member
  obtain ⟨rejection, -, rfl⟩ := List.mem_map.mp member
  exact decide_eq_true (least_rank_le options).1

theorem shown_summary (options : Options) (records failures : Nat) :
    options.shown [.summary records failures] =
      if options.verbosity = 0 then [] else [.summary records failures] := by
  obtain ⟨-, informs⟩ := least_rank_le options
  by_cases silent : options.verbosity = 0
  · have hidden := informs.not.mpr (not_not_intro silent)
    simp [Options.shown, Event.level, silent, hidden]
  · have visible := informs.mpr silent
    simp [Options.shown, Event.level, silent, visible]

theorem mapIdx_map {α β γ : Type} (f : Nat → β → γ) (g : α → β) (items : List α) :
    (items.map g).mapIdx f = items.mapIdx fun place item => f place (g item) := by
  apply List.ext_getElem?
  simp [Function.comp_def]

theorem shown_append (options : Options) (first second : List Event) :
    options.shown (first ++ second) = options.shown first ++ options.shown second :=
  List.filter_append ..

theorem logText_reports (host : Host) (options : Options) (before : List Event)
    (rejected : List Rejection) (records : Nat) :
    host.logText (options.least .records)
        (before ++ rejected.map .rejected ++ [.summary records rejected.length]) =
      String.join ((options.shown before).mapIdx host.line) ++
        String.join ((rejected.map Rejection.message).mapIdx fun place text =>
          host.logLine (place + (options.shown before).length) .warn "compile_defs" text) ++
        (if options.verbosity = 0 then ""
         else host.logLine ((options.shown before).length + rejected.length) .info "compile_defs"
          ("compiled " ++ decimal records ++ " record types, " ++ decimal rejected.length ++
            " failed")) := by
  change String.join ((options.shown _).mapIdx host.line) = _
  rw [shown_append, shown_append, shown_rejected, shown_summary, List.mapIdx_append,
    List.mapIdx_append, String.join_append, String.join_append, mapIdx_map, mapIdx_map]
  have warnings : (fun place rejection => host.line (place + (options.shown before).length)
      (.rejected rejection)) = fun place (rejection : Rejection) =>
        host.logLine (place + (options.shown before).length) .warn "compile_defs"
          rejection.message := rfl
  rw [warnings]
  congr 1
  by_cases silent : options.verbosity = 0
  · simp only [silent, if_true, List.mapIdx_nil, String.join_nil]
  · simp only [silent, if_false, List.mapIdx_cons, List.mapIdx_nil, String.join_cons,
      String.join_nil, String.append_empty, List.length_append, List.length_map, Nat.zero_add]
    rfl

theorem run_of_writes (host : Host) (tree : Tree) (program : Program) (options : Options)
    (text : String)
    (works : (program.draft host options (host.list tree options.folder)).text = .ok text)
    (writes : ∀ path, options.output = some path → ∃ after, tree.write path text = .ok after) :
    ∃ after,
      tree.run host program options =
        ((program.draft host options (host.list tree options.folder)).conclude host program options
          (.ok ()), after) ∧
      ∀ path, options.output = some path → tree.write path text = .ok after := by
  unfold Tree.run Draft.file?
  cases asked : options.output with
  | none => exact ⟨tree, by simp, by simp⟩
  | some path =>
      obtain ⟨after, written⟩ := writes path asked
      refine ⟨after, by simp [works, Except.toOption, written], ?_⟩
      intro other same
      cases Option.some.inj same
      exact written

theorem conclude_of_text (host : Host) (draft : Draft) (program : Program) (options : Options)
    (text : String) (works : draft.text = .ok text) :
    draft.conclude host program options (.ok ()) =
      ⟨if draft.rejected = 0 then 0 else 1,
        if options.output = none then program.streamText text else "",
        host.logText (options.least program) draft.events ++ draft.closing⟩ := by
  unfold Draft.conclude
  rw [works]
  cases options.output <;> rfl

theorem listed_of_loads (options : Options) (listing : Listing) (sources : List RecordSource)
    (loads : (loadRecords options.selection options.folder listing).result = .ok sources) :
    ∃ listed, listing = .ok listed ∧ (sources.map RecordSource.name).Nodup := by
  cases listing with
  | error fault => cases loads
  | ok listed =>
      have apart := below_files_of_loads _ _ _ _ loads
      rw [loadRecords_of_below _ _ _ _ rfl apart] at loads
      refine ⟨listed, rfl, ?_⟩
      rw [names_of_readRecordFiles _ _ _ loads]
      exact nodup_of_below _ apart

structure Host.EndsWith (host : Host) (options : Options) (listing : Listing)
    (sources : List RecordSource) (ends : Outcome × Tree) : Prop where
  output : options.output? ends =
    some (encodeText (options.format.render host.quote (builtRecords sources)))
  stderr : ends.1.stderr =
    host.logText (options.least .records)
        (host.eventsBefore options listing sources ++ (rejections sources).map .rejected ++
          [.summary (builtRecords sources).length (rejections sources).length]) ++
      if rejections sources = [] then ""
      else "compile_defs: " ++ decimal (rejections sources).length ++ " record type(s) failed\n"
  exit : ends.1.exit = if rejections sources = [] then 0 else 1

theorem run_endsWith (host : Host) (tree : Tree) (options : Options) (sources : List RecordSource)
    (loads : (loadRecords options.selection options.folder
      (host.list tree options.folder)).result = .ok sources)
    (writes : ∀ path, options.output = some path → ∃ after,
      tree.write path (options.format.render host.quote (builtRecords sources)) = .ok after) :
    host.EndsWith options (host.list tree options.folder) sources
      (tree.run host .records options) := by
  have draft := draftRecords_of_loads host options (host.list tree options.folder) sources loads
  have works : (Program.records.draft host options (host.list tree options.folder)).text =
      .ok (options.format.render host.quote (builtRecords sources)) := by
    rw [Program.draft, draft]
  obtain ⟨after, runs, written⟩ := run_of_writes host tree .records options _ works writes
  rw [conclude_of_text _ _ _ _ _ works] at runs
  rw [runs]
  constructor
  · unfold Options.output?
    cases asked : options.output with
    | none => simp [Program.streamText]
    | some path => exact bytes?_of_write path _ after (written path asked)
  · have label : Program.records.name ++ ": " = "compile_defs: " := rfl
    rw [Program.draft, draft]
    simp only [Draft.closing, List.length_eq_zero_iff, label]
  · simp [Program.draft, draft]

/-- Records that cannot be built are reported and left out, as if they were not there. The second
run may be on a host that keeps another log and lists folders in another order. -/
theorem run_isolates_rejections (host : Host) (tree : Tree) (options : Options)
    (sources : List RecordSource) (apart : tree.NamesApart)
    (loads : (loadRecords options.selection options.folder
      (host.list tree options.folder)).result = .ok sources)
    (writes : ∀ path, options.output = some path → ∃ after,
      tree.write path (options.format.render host.quote (builtRecords sources)) = .ok after) :
    ∃ built rejected, Splits sources built rejected ∧
      built.length + rejected.length = sources.length ∧
      options.output? (tree.run host .records options) =
        some (encodeText (options.format.render host.quote built)) ∧
      (∃ before warnings,
        before = options.shown
          (host.eventsBefore options (host.list tree options.folder) sources) ∧
        (∀ event ∈ before, event.target ≠ "compile_defs") ∧
        List.Forall₂ Rejection.Reads rejected warnings ∧
        (tree.run host .records options).1.stderr =
          String.join (before.mapIdx host.line) ++
          String.join (warnings.mapIdx fun place text =>
            host.logLine (place + before.length) .warn "compile_defs" text) ++
          (if options.verbosity = 0 then ""
           else host.logLine (before.length + rejected.length) .info "compile_defs"
            ("compiled " ++ decimal built.length ++ " record types, " ++
              decimal rejected.length ++ " failed")) ++
          (if rejected = [] then ""
           else "compile_defs: " ++ decimal rejected.length ++ " record type(s) failed\n")) ∧
      ((tree.run host .records options).1.exit = 1 ↔
        ∃ source ∈ sources, ∃ rejection, source.build = .error rejection) ∧
      ∀ later : Host, later.quote = host.quote →
        let rest :=
          (tree.deleteRecords options (rejected.map Rejection.record)).run later .records options
        options.output? rest = options.output? (tree.run host .records options) ∧
          rest.1.exit = 0 := by
  have splits := splits_sources sources
  have ends := run_endsWith host tree options sources loads writes
  refine ⟨builtRecords sources, rejections sources, splits, splits.length, ends.output,
    ⟨_, (rejections sources).map Rejection.message, rfl, target_eventsBefore _ _ _ _, ?reads, ?log⟩,
    ?exit, ?deleted⟩
  case reads =>
    rw [List.forall₂_map_right_iff, List.forall₂_same]
    exact fun rejection _ => rejection.reads_message
  case log => rw [ends.stderr, logText_reports]
  case exit =>
    rw [← splits.exists_rejected_iff, ends.exit]
    by_cases all : rejections sources = [] <;> simp [all]
  case deleted =>
    intro later sameQuote
    obtain ⟨listed, lists, names⟩ := listed_of_loads options _ sources loads
    obtain ⟨same, others, listsOn, perm⟩ := deleteRecords_listed tree options
      ((rejections sources).map Rejection.record) lists apart later
    rw [lists] at loads
    have loadsOn := loadRecords_of_kept_filter options.selection _ options.folder listed others
      sources loads perm
    rw [← listsOn] at loadsOn
    have built := builtRecords_acceptedSources sources names
    -- The second run is one like the first, over the sources that are left.
    have endsOn := run_endsWith later _ options (acceptedSources sources) loadsOn (by
      intro path asked
      obtain ⟨after, written⟩ := writes path asked
      exact write_sameFolders same path _ _ after written)
    refine ⟨?_, ?_⟩
    · calc options.output? _
          = some (encodeText (options.format.render later.quote
              (builtRecords (acceptedSources sources)))) := endsOn.output
        _ = some (encodeText (options.format.render host.quote (builtRecords sources))) := by
              rw [built, sameQuote]
        _ = options.output? (tree.run host .records options) := ends.output.symm
    · rw [endsOn.exit, rejections_acceptedSources sources names, if_pos rfl]

/-- Folder `d` defines record `A` in `A.def`, and a record that cannot be built in `B.def`. -/
def sampleEntries : List (FileName × Tree) :=
  [([66, 46, 100, 101, 102], .file (encodeText "u7 b")),
    ([65, 46, 100, 101, 102], .file (encodeText "u8 a"))]

def sampleTree : Tree := .folder [([100], .folder sampleEntries)]

def sampleOptions : Options where
  folder := [100]
  output := some [111]
  verbosity := 1
  selection := .default
  format := .source

def sampleSources : List RecordSource := [⟨"A", ["u8 a"]⟩, ⟨"B", ["u7 b"]⟩]

theorem sampleTree_namesApart : sampleTree.NamesApart := by
  simp [sampleTree, sampleEntries, namesApart_folder_iff, namesApart_file]

theorem sampleTree_loads (host : Host) :
    (loadRecords sampleOptions.selection sampleOptions.folder
      (host.list sampleTree sampleOptions.folder)).result = .ok sampleSources := by
  have holds : sampleTree.list sampleOptions.folder = .ok (sampleEntries.map entryOf) := rfl
  have perm := (host.listed_perm (sampleEntries.map entryOf)).filterMap
    sampleOptions.selection.kept?
  rw [list_of_held host holds, loadRecords_result_of_perm _ _ (sampleEntries.map entryOf) _ perm]
  have below : [(⟨"A", [65, 46, 100, 101, 102], .ok "u8 a"⟩ : RecordFile),
      ⟨"B", [66, 46, 100, 101, 102], .ok "u7 b"⟩].Pairwise RecordFile.Below :=
    List.pairwise_pair.mpr (show encodeText "A" < encodeText "B" by decide +kernel)
  have files := files_eq_of_perm sampleOptions.selection (sampleEntries.map entryOf) _
    (List.Perm.swap _ _ _ :) below
  rw [loadRecords_of_below _ _ _ _ files below]
  rfl

theorem run_isolates_rejections_sample :
    let ends := sampleTree.run (.standard "noon") .records sampleOptions
    sampleOptions.output? ends =
        some (encodeText (sourceText quoteLiteral [⟨"A", [.plain ⟨"a", .scalar .u8⟩]⟩])) ∧
      (∃ before, ends.1.stderr = before ++
        "[noon WARN  compile_defs] B: `u7 b`: unknown type token `u7`\n" ++
        "[noon INFO  compile_defs] compiled 1 record types, 1 failed\n" ++
        "compile_defs: 1 record type(s) failed\n") ∧
      ends.1.exit = 1 ∧
      ((sampleTree.deleteRecords sampleOptions ["B"]).run (.standard "one") .records
        sampleOptions).1.exit = 0 := by
  obtain ⟨built, rejected, splits, -, output, reported, exit, rest⟩ :=
    run_isolates_rejections (.standard "noon") sampleTree sampleOptions sampleSources
      sampleTree_namesApart (sampleTree_loads _) fun path asked => by
        cases Option.some.inj asked
        exact ⟨_, rfl⟩
  obtain ⟨rfl, rfl⟩ := splits.unique
  obtain ⟨before, warnings, -, -, reads, stderr⟩ := reported
  have isBuilt : builtRecords sampleSources = [⟨"A", [.plain ⟨"a", .scalar .u8⟩]⟩] := by
    decide +kernel
  have isRejected : rejections sampleSources = [⟨"B", 0, "u7 b", .unknownType "u7"⟩] := by
    decide +kernel
  rw [isBuilt] at output stderr
  rw [isRejected] at reads rest stderr
  have rejects : rejections sampleSources ≠ [] := by simp [isRejected]
  have warned : warnings = ["B: `u7 b`: unknown type token `u7`"] := by
    cases reads with
    | cons first later =>
        obtain ⟨words, isWords, rfl⟩ := first
        cases isWords
        cases later
        rfl
  rw [warned] at stderr
  refine ⟨output, ⟨String.join (before.mapIdx (Host.standard "noon").line), ?_⟩,
    exit.mpr (splits.exists_rejected_iff.mp rejects), (rest (.standard "one") rfl).2⟩
  have warning : stampedLine "noon" .warn "compile_defs" "B: `u7 b`: unknown type token `u7`" =
      "[noon WARN  compile_defs] B: `u7 b`: unknown type token `u7`\n" := by decide +kernel
  have numbers : stampedLine "noon" .info "compile_defs"
      ("compiled " ++ decimal 1 ++ " record types, " ++ decimal 1 ++ " failed") =
        "[noon INFO  compile_defs] compiled 1 record types, 1 failed\n" := by decide +kernel
  have closing : "compile_defs: " ++ decimal 1 ++ " record type(s) failed\n" =
      "compile_defs: 1 record type(s) failed\n" := by decide +kernel
  have line (place : Nat) (level : Level) (message : String) :
      (Host.standard "noon").logLine place level "compile_defs" message =
        stampedLine "noon" level "compile_defs" message := rfl
  rw [stderr, if_neg (by decide), if_neg (by simp)]
  simp only [line, List.mapIdx_cons, List.mapIdx_nil, String.join_cons, String.join_nil,
    String.append_empty, List.length_singleton, warning, numbers, closing]

end BinaryRecord
