import BinaryRecord.Field
import BinaryRecord.Text.Lines

/-! Records: what defines one, and its members once the definitions are worked out. A member is a
plain field, or a number packed full of flags. -/

namespace BinaryRecord

/-- The place of a flag in `flags` is its bit in the backing number. -/
structure FlagWord where
  name : String
  ordinal : Nat
  backing : Numeric
  flags : List Field
  deriving DecidableEq, Repr

inductive Member
  | plain (field : Field)
  | packed (word : FlagWord)
  deriving DecidableEq, Repr

def FlagWord.ofRun (ordinal : Nat) (backing : Numeric) (flags : List Field) : FlagWord :=
  ⟨"bitfield" ++ decimal ordinal, ordinal, backing, flags⟩

theorem FlagWord.eq_ofRun (word : FlagWord) (ordinal : Nat) (own : word.ordinal = ordinal)
    (named : word.name = "bitfield" ++ decimal word.ordinal) :
    word = .ofRun ordinal word.backing word.flags := by
  obtain ⟨name, number, backing, flags⟩ := word
  obtain rfl : number = ordinal := own
  obtain rfl : name = "bitfield" ++ decimal number := named
  rfl

def FlagWord.bits (word : FlagWord) : List (Nat × Field) :=
  word.flags.zipIdx.map fun (flag, bit) => (bit, flag)

def Member.name : Member → String
  | .plain field => field.name
  | .packed word => word.name

def Member.packed? : Member → Option FlagWord
  | .plain _ => none
  | .packed word => some word

def Member.fields : Member → List Field
  | .plain field => [field]
  | .packed word => word.flags

def flatten (members : List Member) : List Field := members.flatMap Member.fields

theorem FlagWord.getElem?_bits (word : FlagWord) (bit : Nat) :
    word.bits[bit]? = word.flags[bit]?.map fun flag => (bit, flag) := by
  simp only [FlagWord.bits, List.getElem?_map, List.getElem?_zipIdx, Option.map_map]
  simp [Function.comp_def]

theorem flatten_cons (member : Member) (members : List Member) :
    flatten (member :: members) = member.fields ++ flatten members := by
  simp [flatten]

theorem flatten_append (first second : List Member) :
    flatten (first ++ second) = flatten first ++ flatten second := by
  simp [flatten]

structure RecordSource where
  name : String
  definitions : List String
  deriving DecidableEq, Repr

structure Record where
  name : String
  members : List Member
  deriving DecidableEq, Repr

def Record.member? (record : Record) (name : String) : Option Member :=
  record.members.find? fun member => member.name = name

def Record.words (record : Record) : List FlagWord := record.members.filterMap Member.packed?

def Record.fields (record : Record) : List Field := flatten record.members

def isComment : List Char → Bool
  | '#' :: _ => true
  | '/' :: '/' :: _ => true
  | _ => false

def definitionLines (text : String) : List String :=
  (((lines text.toList).map trim).filter fun line => !line.isEmpty && !isComment line).map
    String.ofList

end BinaryRecord
