import BinaryRecord.Name

namespace BinaryRecord

def Shape.structType : Shape → String
  | .scalar number => number.structType
  | .array element count => "[" ++ element.structType ++ "; " ++ decimal count ++ "]"
  | .flag backing _ => backing.structType

def fieldLine (name type : String) : String :=
  "    pub " ++ fieldIdentifier name ++ ": " ++ type ++ ","

/-- A flag keeps its own name; only the word that holds it is put into snake case. -/
def flagLine (name : String) (bit : Nat) : String :=
  "    #[bitflag(" ++ identifier name ++ ", " ++ decimal bit ++ ")]"

def FlagWord.structLines (word : FlagWord) : List String :=
  word.bits.map (fun (bit, flag) => flagLine flag.name bit) ++
    [fieldLine word.name word.backing.structType]

def Member.structLines : Member → List String
  | .plain field => [fieldLine field.name field.shape.structType]
  | .packed word => word.structLines

def Record.structLines (record : Record) : List String :=
  ["#[derive(ParamStruct, Debug)]", "#[repr(C)]", "pub struct " ++ record.name ++ " \x7b"] ++
    record.members.flatMap Member.structLines ++ ["\x7d"]

def unlines (lines : List String) : String := String.join (lines.map fun line => line ++ "\n")

def Record.structText (record : Record) : String := unlines record.structLines

def headerLines : List String :=
  ["// **********************************",
   "// *** AUTOGENERATED, DO NOT EDIT ***",
   "// **********************************"]

section Source

variable (quote : String → String)

def entryLine (record : Record) : String := "    " ++ quote record.name ++ ","

def nameTableLines (records : List Record) : List String :=
  "pub const RECORD_NAMES: &[&str] = &[" :: records.map (entryLine quote) ++ ["];"]

def sourceLines (records : List Record) : List String :=
  headerLines ++ "" :: nameTableLines quote records ++
    records.flatMap fun record => "" :: record.structLines

def sourceText (records : List Record) : String := unlines (sourceLines quote records)

end Source

end BinaryRecord
