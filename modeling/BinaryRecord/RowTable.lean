import BinaryRecord.Folder
import BinaryRecord.Json
import BinaryRecord.Text.Pattern
import Std.Data.TreeMap

namespace BinaryRecord

abbrev RowTable := Std.TreeMap Nat String

def matchName? : List Char → Option (List Char × List Char) := matchRun? (· ≠ '\n') some

def matchGap? : List Char → Option (List Char × List Char × List Char) :=
  matchRun? isBlank matchName?

/-- An id, white space, a name, and what is left behind it. Each of the three is as long as what has
to follow it allows. -/
def matchRow? : List Char → Option (List Char × List Char × List Char × List Char) :=
  matchRun? isDecimal matchGap?

/-- The name ends before white space, and is empty where it was white space only. An id with a digit
outside ASCII, or too large for 64 bits, names no row. -/
def readRow? (line : List Char) : Option (Nat × String) :=
  match matchRow? line with
  | none => none
  | some (digits, _, name, _) =>
      if digits.all Char.isDigit && numeralValue digits < wordLimit then
        some (numeralValue digits, String.ofList (trimEnd name))
      else none

def readRows (text : String) : List (Nat × String) := (lines text.toList).filterMap readRow?

def RowTable.read (text : String) : RowTable :=
  (readRows text).foldl (fun table row => table.insert row.1 row.2) ∅

def RowTable.toJson (table : RowTable) : Json :=
  .object (table.toList.map fun (id, name) => (decimal id, .text name))

abbrev RowTables := Std.TreeMap String RowTable

def RowTables.toJson (tables : RowTables) : Json :=
  .object (tables.toList.map fun (name, table) => (name, table.toJson))

def tableExtension : FileName := encodeText "txt"

structure TableFile where
  name : FileName
  text : Except StorageFault String

def Entry.table? (entry : Entry) : Option TableFile :=
  if entry.name.extension? = some tableExtension then
    entry.content.text?.map fun text => ⟨entry.name, text⟩
  else none

/-- Files are read in the order in which the folder lists them; a later one replaces an earlier one
whose stem shows alike. -/
def readTables (folder : Path) (tables : RowTables) :
    List TableFile → Except FolderFault RowTables
  | [] => .ok tables
  | file :: files =>
      match file.text with
      | .error fault => .error (.unreadable (folder.join file.name) fault)
      | .ok text =>
          readTables folder (tables.insert (decodeLossy file.name.stem) (RowTable.read text)) files

def loadRowTables (folder : Path) (listing : Listing) : Loaded RowTables :=
  listing.load folder fun entries =>
    match readTables folder ∅ (entries.filterMap Entry.table?) with
    | .error fault => ⟨[], .error fault⟩
    | .ok tables => ⟨[.tablesLoaded tables.size folder], .ok tables⟩

end BinaryRecord
