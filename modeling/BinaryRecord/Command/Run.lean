import BinaryRecord.Command.Options
import BinaryRecord.Record.Declaration
import BinaryRecord.Record.Document
import BinaryRecord.RowTable

namespace BinaryRecord

structure Outcome where
  exit : Nat
  stdout : String
  stderr : String
  deriving DecidableEq, Repr

structure Draft where
  events : List Event
  text : Except Failure String
  rejected : Nat

def builtRecords (sources : List RecordSource) : List Record :=
  sources.filterMap fun source => source.build.toOption

def builtEvents (sources : List RecordSource) : List Event :=
  sources.filterMap fun source =>
    source.build.toOption.map fun record =>
      .built source.name source.definitions.length record.members.length

def rejections (sources : List RecordSource) : List Rejection :=
  sources.filterMap fun source =>
    match source.build with
    | .error rejection => some rejection
    | .ok _ => none

def Format.render (quote : String → String) (format : Format) (records : List Record) : String :=
  match format with
  | .source => sourceText quote records
  | .json => (recordsJson records).render

/-- Records that cannot be built are left out and reported. -/
def draftRecords (host : Host) (options : Options) (listing : Listing) : Draft :=
  let loaded := loadRecords options.selection options.folder listing
  match loaded.result with
  | .error fault =>
      ⟨loaded.events,
        .error ⟨"loading definitions from " ++ options.folder.display, fault.causes⟩, 0⟩
  | .ok sources =>
      let built := builtRecords sources
      let rejected := rejections sources
      ⟨loaded.events ++ host.finished (builtEvents sources) ++ rejected.map .rejected ++
          [.summary built.length rejected.length],
        .ok (options.format.render host.quote built), rejected.length⟩

def draftRows (options : Options) (listing : Listing) : Draft :=
  let loaded := loadRowTables options.folder listing
  match loaded.result with
  | .error fault =>
      ⟨loaded.events,
        .error ⟨"reading row names from " ++ options.folder.display, fault.causes⟩, 0⟩
  | .ok tables => ⟨loaded.events, .ok tables.toJson.render, 0⟩

def Program.draft (host : Host) (program : Program) (options : Options) (listing : Listing) :
    Draft :=
  match program with
  | .records => draftRecords host options listing
  | .rows => draftRows options listing

def Draft.file? (draft : Draft) (options : Options) : Option (Path × String) := do
  let path ← options.output
  let text ← draft.text.toOption
  return (path, text)

/-- A document of row names ends its line on a stream, though not in a file. -/
def Program.streamText (program : Program) (text : String) : String :=
  match program with
  | .records => text
  | .rows => text ++ "\n"

def Draft.closing (draft : Draft) : String :=
  if draft.rejected = 0 then ""
  else Program.records.name ++ ": " ++ decimal draft.rejected ++ " record type(s) failed\n"

def Draft.conclude (host : Host) (draft : Draft) (program : Program) (options : Options)
    (written : Except StorageFault Unit) : Outcome :=
  let log := host.logText (options.least program) draft.events
  let exit := if draft.rejected = 0 then 0 else 1
  match draft.text, options.output with
  | .error failure, _ => ⟨1, "", log ++ host.report failure⟩
  | .ok text, none => ⟨exit, program.streamText text, log ++ draft.closing⟩
  | .ok _, some path =>
      match written with
      | .ok () => ⟨exit, "", log ++ draft.closing⟩
      | .error fault =>
          ⟨1, "", log ++ host.report ⟨"writing " ++ path.display, [fault.message]⟩⟩

def Tree.run (host : Host) (tree : Tree) (program : Program) (options : Options) :
    Outcome × Tree :=
  let draft := program.draft host options (host.list tree options.folder)
  match draft.file? options with
  | none => (draft.conclude host program options (.ok ()), tree)
  | some (path, text) =>
      match tree.write path text with
      | .ok after => (draft.conclude host program options (.ok ()), after)
      | .error fault => (draft.conclude host program options (.error fault), tree)

end BinaryRecord
