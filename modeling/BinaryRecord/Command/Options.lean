import BinaryRecord.Folder

namespace BinaryRecord

inductive Program
  | records
  | rows
  deriving DecidableEq, Repr

def Program.name : Program → String
  | .records => "compile_defs"
  | .rows => "row_names"

def Program.ofName? (name : String) : Option Program :=
  [Program.records, .rows].find? fun program => program.name = name

inductive Format
  | source
  | json
  deriving DecidableEq, Repr

def Format.ofText? (text : String) : Option Format :=
  if text = "rust" then some .source
  else if text = "json" then some .json
  else none

inductive Setting
  | folder (path : String)
  | extension (text : String)
  | skip (record : String)
  | format (name : String)
  | output (path : String)
  | verbose
  deriving DecidableEq, Repr

def Program.valued? (program : Program) (name : List Char) : Option (String → Setting) :=
  if name = "output".toList then some .output
  else if program = .rows then none
  else if name = "ext".toList then some .extension
  else if name = "skip".toList then some .skip
  else if name = "format".toList then some .format
  else none

/-- Short options may share one dash. The last may have its value attached. -/
def readCluster : List Char → Option (List Setting × Option (Option String))
  | [] => some ([], none)
  | 'v' :: rest => do
      let (settings, value) ← readCluster rest
      return (.verbose :: settings, value)
  | ['o'] => some ([], some none)
  | 'o' :: '=' :: value => some ([], some (some (String.ofList value)))
  | 'o' :: value => some ([], some (some (String.ofList value)))
  | _ => none

/-- After a lone pair of dashes every argument is a folder. -/
def readArguments (program : Program) : List String → Option (List Setting)
  | [] => some []
  | argument :: rest =>
      match argument.toList with
      | ['-', '-'] => some (rest.map .folder)
      | '-' :: '-' :: option =>
          let name := option.takeWhile (· ≠ '=')
          match option.dropWhile (· ≠ '=') with
          | '=' :: value => do
              let setting ← program.valued? name
              return setting (String.ofList value) :: (← readArguments program rest)
          | _ =>
              if name = "verbose".toList then do
                return .verbose :: (← readArguments program rest)
              else match rest with
                | value :: rest => do
                    let setting ← program.valued? name
                    return setting value :: (← readArguments program rest)
                | [] => none
      | '-' :: c :: cs =>
          match readCluster (c :: cs) with
          | none => none
          | some (settings, none) => do return settings ++ (← readArguments program rest)
          | some (settings, some (some value)) => do
              return settings ++ .output value :: (← readArguments program rest)
          | some (settings, some none) =>
              match rest with
              | value :: rest => do
                  return settings ++ .output value :: (← readArguments program rest)
              | [] => none
      | _ => do return .folder argument :: (← readArguments program rest)

structure Options where
  folder : Path
  output : Option Path
  verbosity : Nat
  selection : Selection
  format : Format

def Setting.folder? : Setting → Option String
  | .folder path => some path
  | _ => none

def Setting.extension? : Setting → Option String
  | .extension text => some text
  | _ => none

def Setting.skip? : Setting → Option String
  | .skip record => some record
  | _ => none

def Setting.format? : Setting → Option String
  | .format name => some name
  | _ => none

def Setting.output? : Setting → Option String
  | .output path => some path
  | _ => none

def atMostOne? {α : Type} : List α → Option (Option α)
  | [] => some none
  | [item] => some (some item)
  | _ => none

/-- Only skipped records and verbosity may be asked for again and again. -/
def Options.ofSettings? (settings : List Setting) : Option Options := do
  let folder ← (← atMostOne? (settings.filterMap Setting.folder?))
  let extension ← atMostOne? (settings.filterMap Setting.extension?)
  let format ← atMostOne? (settings.filterMap Setting.format?)
  let output ← atMostOne? (settings.filterMap Setting.output?)
  let format ← match format with
    | none => some Format.source
    | some name => Format.ofText? name
  return {
    folder := Path.ofText folder
    output := output.map Path.ofText
    verbosity := settings.count .verbose
    selection := ⟨extension.getD Selection.default.extension, settings.filterMap Setting.skip?⟩
    format := format }

def Options.read? (program : Program) (arguments : List String) : Option Options :=
  (readArguments program arguments).bind Options.ofSettings?

def Options.least (options : Options) : Program → Level
  | .records =>
      if options.verbosity = 0 then .warn else if options.verbosity = 1 then .info else .debug
  | .rows => if options.verbosity = 0 then .warn else .info

end BinaryRecord
