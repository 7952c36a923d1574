import BinaryRecord.Field

/-! Definitions: a type token, a name, an array or bit suffix, and a default value that is dropped.
Spaces and tabs may stand between any two of these parts. -/

namespace BinaryRecord

inductive Suffix
  | none
  | array (count : Nat)
  | flag (bits : Nat)
  deriving DecidableEq, Repr

/-- Counts and widths are the values of the digits written, without a bound. -/
structure Definition where
  token : String
  name : String
  suffix : Suffix
  deriving DecidableEq, Repr

def arrayShape (element : Numeric) (count : Nat) : Except Fault Shape :=
  if wordLimit ≤ count then .error .malformed
  else if count < 1 then .error (.countTooSmall count)
  else .ok (.array element count)

def flagShape (token : String) (backing : Numeric) (bits : Nat) : Except Fault Shape :=
  match backing.bitWidth? with
  | none => .error (.cannotBack token)
  | some width =>
      if wordLimit ≤ bits then .error .malformed
      else if bits < 1 ∨ width < bits then .error (.widthOutOfRange backing bits width)
      else .ok (.flag backing bits)

def Definition.shape (definition : Definition) : Except Fault Shape :=
  match Numeric.ofToken? definition.token with
  | none => .error (.unknownType definition.token)
  | some number =>
      match definition.suffix with
      | .none => .ok (.scalar number)
      | .array count => arrayShape number count
      | .flag bits => flagShape definition.token number bits

def Definition.field (definition : Definition) : Except Fault Field :=
  definition.shape.map fun shape => ⟨definition.name, shape⟩

def isGap (c : Char) : Bool := c = ' ' || c = '\t'

def isWordChar (c : Char) : Bool := c.isAlphanum || c = '_'

def skipGap (s : List Char) : List Char := s.dropWhile isGap

def readArraySuffix? : List Char → Option (Suffix × List Char)
  | '[' :: rest =>
      match readRun? Char.isDigit (skipGap rest) with
      | none => none
      | some (digits, rest) =>
          match skipGap rest with
          | ']' :: rest => some (.array (numeralValue digits), rest)
          | _ => none
  | _ => none

def readFlagSuffix? : List Char → Option (Suffix × List Char)
  | ':' :: rest =>
      (readRun? Char.isDigit (skipGap rest)).map fun (digits, rest) =>
        (.flag (numeralValue digits), rest)
  | _ => none

def readNoSuffix? (s : List Char) : Option (Suffix × List Char) := some (.none, s)

/-- A default value is one run without spaces and tabs; nothing else about it matters. An equals
sign without a value is left where it is. -/
def dropDefault : List Char → List Char
  | '=' :: rest =>
      match readRun? (fun c => !isGap c) (skipGap rest) with
      | none => '=' :: rest
      | some (_, rest) => rest
  | s => s

def readForm? (readSuffix? : List Char → Option (Suffix × List Char)) (s : List Char) :
    Option (Definition × List Char) := do
  let (token, s) ← readRun? isWordChar s
  let (name, s) ← readRun? isWordChar (skipGap s)
  let (suffix, s) ← readSuffix? (skipGap s)
  return (⟨String.ofList token, String.ofList name, suffix⟩, dropDefault (skipGap s))

/-- The first form that fits is final, also where the text goes on after it. -/
def readAnyForm? (s : List Char) : Option (Definition × List Char) :=
  readForm? readArraySuffix? s <|> readForm? readFlagSuffix? s <|> readForm? readNoSuffix? s

def readDefinition? (s : List Char) : Option Definition := do
  let (definition, rest) ← readAnyForm? (skipGap s)
  if (skipGap rest).isEmpty then return definition else none

def Definition.read? (text : String) : Option Definition := readDefinition? text.toList

/-- A text of the wrong form is refused before its token is looked up, and an unknown token before
its number is. -/
def Field.read (text : String) : Except Fault Field :=
  match Definition.read? text with
  | none => .error .malformed
  | some definition => definition.field

end BinaryRecord
