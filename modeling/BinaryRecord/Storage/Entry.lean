import BinaryRecord.Text.Utf8

namespace BinaryRecord

abbrev FileName := List UInt8

abbrev Path := List UInt8

def slash : UInt8 := 0x2F

def dot : UInt8 := 0x2E

def Path.ofText (text : String) : Path := encodeText text

/-- Bytes that are not UTF-8 show as U+FFFD. -/
def Path.display (path : Path) : String := decodeLossy path

def Path.join (folder : Path) (name : FileName) : Path :=
  if folder.isEmpty || folder.getLast? = some slash then folder ++ name
  else folder ++ slash :: name

def upward : FileName := [dot, dot]

def Path.parts (path : Path) : List FileName := path.splitOn slash

def Path.steps (path : Path) : List FileName :=
  path.parts.filter fun step => step ≠ [] ∧ step ≠ [dot]

/-- A path that ends by going up has no file name. -/
def Path.fileName? (path : Path) : Option FileName :=
  path.steps.getLast?.filter fun name => name ≠ upward

/-- A name and its extension, cut at the last dot. A dot in front begins no extension. -/
def FileName.cut (name : FileName) : FileName × Option FileName :=
  match name.reverse.dropWhile (· ≠ dot) with
  | [] | [_] => (name, none)
  | _ :: stem => (stem.reverse, some (name.reverse.takeWhile (· ≠ dot)).reverse)

def FileName.stem (name : FileName) : FileName := name.cut.1

def FileName.extension? (name : FileName) : Option FileName := name.cut.2

def structSuffix : List Char := ['_', 'S', 'T']

def dropStructSuffix (stem : List Char) : List Char :=
  if structSuffix.isSuffixOf stem then stem.take (stem.length - structSuffix.length) else stem

def FileName.record? (name : FileName) : Option String := do
  let stem ← decodeText? name.stem
  let record := String.ofList (dropStructSuffix stem.toList)
  if record.isEmpty then none else some record

def Path.record? (path : Path) : Option String := path.fileName?.bind FileName.record?

inductive StorageFault
  | missing
  | notFolder
  | isFolder
  | tooLong
  | notText
  | other (reason : String)
  deriving DecidableEq, Repr

def StorageFault.message : StorageFault → String
  | .missing => "No such file or directory (os error 2)"
  | .notFolder => "Not a directory (os error 20)"
  | .isFolder => "Is a directory (os error 21)"
  | .tooLong => "File name too long (os error 36)"
  | .notText => "stream did not contain valid UTF-8"
  | .other reason => reason

inductive Content
  | folder
  | file (text : Except StorageFault String)

structure Entry where
  name : FileName
  content : Content

def Content.text? : Content → Option (Except StorageFault String)
  | .folder => none
  | .file text => some text

abbrev Listing := Except StorageFault (List Entry)

def fileText (bytes : List UInt8) : Except StorageFault String :=
  match decodeText? bytes with
  | some text => .ok text
  | none => .error .notText

end BinaryRecord
