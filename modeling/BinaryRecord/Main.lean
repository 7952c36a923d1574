import BinaryRecord.Command.Run
import BinaryRecord.Host.Standard
import Std.Time.Format

/-! The command line: the first argument names the program, the others are for it. -/

namespace BinaryRecord

/-- The numbers are those of the system for a path through a file, for a folder in place of a file
and for a name that is too long. Each shares its kind of error with others. -/
def StorageFault.ofError : IO.Error → StorageFault
  | .noFileOrDirectory .. => .missing
  | .inappropriateType _ 20 _ => .notFolder
  | .inappropriateType _ 21 _ => .isFolder
  | .invalidArgument _ 36 _ => .tooLong
  | error => .other (toString error)

def catchFault {α : Type} (action : IO α) : IO (Except StorageFault α) := do
  match ← action.toBaseIO with
  | .ok value => return .ok value
  | .error error => return .error (.ofError error)

def readContent (entry : IO.FS.DirEntry) : IO Content := do
  match ← (entry.path.metadata).toBaseIO with
  | .error _ => return .folder
  | .ok metadata =>
      if metadata.type == .file then
        return .file ((← catchFault (IO.FS.readBinFile entry.path)) >>= fun bytes =>
          fileText bytes.data.toList)
      else return .folder

def readListing (folder : String) : IO Listing :=
  catchFault do
    let top : IO.FS.DirEntry := ⟨folder, ""⟩
    let entries ← top.root.readDir
    entries.toList.mapM fun entry => do
      return ⟨encodeText entry.fileName, ← readContent entry⟩

def currentTime : IO String := do
  let now ← Std.Time.Timestamp.now
  return (Std.Time.DateTime.ofTimestamp now Std.Time.TimeZone.ZoneRules.UTC).format
    "uuuu-MM-dd'T'HH:mm:ss'Z'"

def Program.execute (program : Program) (options : Options) : IO Outcome := do
  let host := Host.standard (← currentTime)
  let draft := program.draft host options (← readListing options.folder.display)
  let written ← match draft.file? options with
    | none => pure (.ok ())
    | some (path, text) => catchFault (IO.FS.writeFile path.display text)
  return draft.conclude host program options written

def usageText : String :=
  "usage: compile_defs [--ext EXT] [--skip NAME]... [--format rust|json] [-o FILE] [-v]... DIR\n" ++
    "       row_names [-o FILE] [-v]... DIR\n"

def runArguments (arguments : List String) : IO UInt32 := do
  let request := do
    let (name, rest) ← arguments.head?.map fun name => (name, arguments.tail)
    let program ← Program.ofName? name
    return (program, ← Options.read? program rest)
  match request with
  | none =>
      IO.eprint usageText
      return 2
  | some (program, options) =>
      let outcome ← program.execute options
      IO.eprint outcome.stderr
      IO.print outcome.stdout
      return outcome.exit.toUInt32

end BinaryRecord

def main (arguments : List String) : IO UInt32 := BinaryRecord.runArguments arguments
