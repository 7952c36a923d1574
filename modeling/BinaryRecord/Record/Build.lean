import BinaryRecord.Definition
import BinaryRecord.Name
import BinaryRecord.Packing

namespace BinaryRecord

structure Rejection where
  record : String
  index : Nat
  definition : String
  fault : Fault
  deriving DecidableEq, Repr

def Rejection.message (rejection : Rejection) : String :=
  rejection.record ++ ": `" ++ rejection.definition ++ "`: " ++ rejection.fault.message

def readFieldsFrom (index : Nat) : List String → Except PlacedFault (List Field)
  | [] => .ok []
  | definition :: definitions =>
      match Field.read definition with
      | .error fault => .error ⟨index, fault⟩
      | .ok field => (readFieldsFrom (index + 1) definitions).map (field :: ·)

def readFields (definitions : List String) : Except PlacedFault (List Field) :=
  readFieldsFrom 0 definitions

def distinctMembers (members : List Member) : List Member :=
  (distinct members).map Member.distinctFlags

/-- Every definition is read before any run is packed, so a text that cannot be read is blamed
before a run that cannot be packed. -/
def buildMembers (definitions : List String) : Except PlacedFault (List Member) := do
  let fields ← readFields definitions
  let members ← pack fields
  return distinctMembers members

def PlacedFault.reject (record : String) (definitions : List String) (placed : PlacedFault) :
    Rejection :=
  ⟨record, placed.index, definitions.getD placed.index "", placed.fault⟩

def RecordSource.build (source : RecordSource) : Except Rejection Record :=
  match buildMembers source.definitions with
  | .error placed => .error (placed.reject source.name source.definitions)
  | .ok members => .ok ⟨source.name, members⟩

end BinaryRecord
