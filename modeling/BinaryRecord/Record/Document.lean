import BinaryRecord.Json.Reader
import BinaryRecord.Record

/-! Records as JSON documents, and back. Entries are found by their keys, in whatever order they
stand. -/

namespace BinaryRecord

def Numeric.toJson (number : Numeric) : Json := .text number.tag

def Shape.entries : Shape → List (String × Json)
  | .scalar number => [("kind", .text "scalar"), ("ty", number.toJson)]
  | .array element count =>
      [("kind", .text "array"), ("element", element.toJson), ("count", .number count)]
  | .flag backing bits =>
      [("kind", .text "bitfield_member"), ("backing", backing.toJson), ("bits", .number bits)]

def Field.entries (field : Field) : List (String × Json) :=
  ("name", .text field.name) :: field.shape.entries

def Field.toJson (field : Field) : Json := .object field.entries

def FlagWord.entries (word : FlagWord) : List (String × Json) :=
  [("name", .text word.name), ("ordinal", .number word.ordinal),
   ("backing", word.backing.toJson), ("members", .list (word.flags.map Field.toJson))]

def Member.toJson : Member → Json
  | .plain field => .object (("member", .text "field") :: field.entries)
  | .packed word => .object (("member", .text "packed") :: word.entries)

def Record.toJson (record : Record) : Json :=
  .object
    [("record_name", .text record.name), ("members", .list (record.members.map Member.toJson))]

def recordsJson (records : List Record) : Json := .list (records.map Record.toJson)

def Json.text? : Json → Option String
  | .text value => some value
  | _ => none

def Json.number? : Json → Option Nat
  | .number value => some value
  | _ => none

def Json.items? : Json → Option (List Json)
  | .list items => some items
  | _ => none

def Json.entry? (key : String) : Json → Option Json
  | .object entries => entries.lookup key
  | _ => none

def Numeric.all : List Numeric := [.u8, .u16, .u32, .u64, .i8, .i16, .i32, .i64, .float]

def Json.numeric? (document : Json) : Option Numeric := do
  let tag ← document.text?
  Numeric.all.find? fun number => number.tag = tag

def Json.shape? (document : Json) : Option Shape := do
  match ← (← document.entry? "kind").text? with
  | "scalar" => return .scalar (← (← document.entry? "ty").numeric?)
  | "array" =>
      return .array (← (← document.entry? "element").numeric?)
        (← (← document.entry? "count").number?)
  | "bitfield_member" =>
      return .flag (← (← document.entry? "backing").numeric?) (← (← document.entry? "bits").number?)
  | _ => none

def Json.field? (document : Json) : Option Field := do
  return ⟨← (← document.entry? "name").text?, ← document.shape?⟩

def Json.flagWord? (document : Json) : Option FlagWord := do
  let flags ← (← (← document.entry? "members").items?).mapM Json.field?
  return {
    name := ← (← document.entry? "name").text?
    ordinal := ← (← document.entry? "ordinal").number?
    backing := ← (← document.entry? "backing").numeric?
    flags := flags }

def Json.member? (document : Json) : Option Member := do
  match ← (← document.entry? "member").text? with
  | "field" => return .plain (← document.field?)
  | "packed" => return .packed (← document.flagWord?)
  | _ => none

def Json.record? (document : Json) : Option Record := do
  let members ← (← (← document.entry? "members").items?).mapM Json.member?
  return ⟨← (← document.entry? "record_name").text?, members⟩

def Json.records? (document : Json) : Option (List Record) := do
  (← document.items?).mapM Json.record?

def readRecords? (text : String) : Option (List Record) := (Json.read? text).bind Json.records?

end BinaryRecord
