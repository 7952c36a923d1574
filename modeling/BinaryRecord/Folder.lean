import BinaryRecord.Host

namespace BinaryRecord

inductive FolderFault
  | unreadable (path : Path) (fault : StorageFault)
  | duplicate (record : String) (first second : Path)
  deriving DecidableEq, Repr

def FolderFault.message : FolderFault → String
  | .unreadable path fault => path.display ++ ": " ++ fault.message
  | .duplicate record first second =>
      "record " ++ record ++ " defined by both " ++ first.display ++ " and " ++ second.display

def FolderFault.causes (fault : FolderFault) : List String :=
  match fault with
  | .unreadable _ reason => [fault.message, reason.message]
  | .duplicate _ _ _ => [fault.message]

structure Loaded (α : Type) where
  events : List Event
  result : Except FolderFault α

def Loaded.prepend {α : Type} (events : List Event) (loaded : Loaded α) : Loaded α :=
  { loaded with events := events ++ loaded.events }

def Listing.load {α : Type} (listing : Listing) (folder : Path)
    (load : List Entry → Loaded α) : Loaded α :=
  match listing with
  | .error fault => ⟨[], .error (.unreadable folder fault)⟩
  | .ok entries => load entries

structure Selection where
  extension : String
  skip : List String
  deriving DecidableEq, Repr

def Selection.default : Selection := ⟨"def", []⟩

structure RecordFile where
  record : String
  name : FileName
  text : Except StorageFault String

inductive Verdict
  | ignored
  | unnamed
  | skipped (record : String)
  | kept (file : RecordFile)

def sameIgnoringCase (a b : String) : Bool := a.toList.map Char.toLower = b.toList.map Char.toLower

def Selection.judge (selection : Selection) (entry : Entry) : Verdict :=
  match entry.content with
  | .folder => .ignored
  | .file text =>
      if entry.name.extension? = some (encodeText selection.extension) then
        match entry.name.record? with
        | none => .unnamed
        | some record =>
            if selection.skip.any (sameIgnoringCase record) then .skipped record
            else .kept ⟨record, entry.name, text⟩
      else .ignored

def Verdict.file? : Verdict → Option RecordFile
  | .kept file => some file
  | _ => none

def Selection.event? (selection : Selection) (folder : Path) (entry : Entry) : Option Event :=
  match selection.judge entry with
  | .unnamed => some (.unnamed (folder.join entry.name))
  | .skipped record => some (.skipped record (folder.join entry.name))
  | _ => none

def RecordFile.before (first second : RecordFile) : Bool :=
  first.record < second.record || (first.record = second.record && first.name ≤ second.name)

def Selection.files (selection : Selection) (entries : List Entry) : List RecordFile :=
  (entries.filterMap fun entry => (selection.judge entry).file?).mergeSort RecordFile.before

def duplicate? (folder : Path) : List RecordFile → Option FolderFault
  | first :: second :: rest =>
      if first.record = second.record then
        some (.duplicate first.record (folder.join first.name) (folder.join second.name))
      else duplicate? folder (second :: rest)
  | _ => none

def readRecordFiles (folder : Path) : List RecordFile → Loaded (List RecordSource)
  | [] => ⟨[], .ok []⟩
  | file :: files =>
      match file.text with
      | .error fault => ⟨[], .error (.unreadable (folder.join file.name) fault)⟩
      | .ok text =>
          let source : RecordSource := ⟨file.record, definitionLines text⟩
          let later := readRecordFiles folder files
          ⟨.read source.name source.definitions.length :: later.events,
            later.result.map (source :: ·)⟩

def loadRecordFiles (folder : Path) (files : List RecordFile) : Loaded (List RecordSource) :=
  match duplicate? folder files with
  | some fault => ⟨[], .error fault⟩
  | none =>
      let loaded := readRecordFiles folder files
      match loaded.result with
      | .error fault => ⟨loaded.events, .error fault⟩
      | .ok sources =>
          ⟨loaded.events ++ [.recordsLoaded sources.length folder], .ok sources⟩

/-- Duplicates are found before any file is read. -/
def loadRecords (selection : Selection) (folder : Path) (listing : Listing) :
    Loaded (List RecordSource) :=
  listing.load folder fun entries =>
    (loadRecordFiles folder (selection.files entries)).prepend
      (entries.filterMap (selection.event? folder))

end BinaryRecord
