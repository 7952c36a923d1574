import BinaryRecord.Text.Character

namespace BinaryRecord

inductive Numeric
  | u8
  | u16
  | u32
  | u64
  | i8
  | i16
  | i32
  | i64
  | float
  deriving DecidableEq, Repr

/-- Only an integer has bits to hand out, so `float` has none. -/
def Numeric.bitWidth? : Numeric → Option Nat
  | .u8 | .i8 => some 8
  | .u16 | .i16 => some 16
  | .u32 | .i32 => some 32
  | .u64 | .i64 => some 64
  | .float => none

def Numeric.byteSize : Numeric → Nat
  | .u8 | .i8 => 1
  | .u16 | .i16 => 2
  | .u32 | .i32 | .float => 4
  | .u64 | .i64 => 8

def Numeric.label : Numeric → String
  | .u8 => "U8"
  | .u16 => "U16"
  | .u32 => "U32"
  | .u64 => "U64"
  | .i8 => "I8"
  | .i16 => "I16"
  | .i32 => "I32"
  | .i64 => "I64"
  | .float => "Float"

def Numeric.tag : Numeric → String
  | .u8 => "u8"
  | .u16 => "u16"
  | .u32 => "u32"
  | .u64 => "u64"
  | .i8 => "i8"
  | .i16 => "i16"
  | .i32 => "i32"
  | .i64 => "i64"
  | .float => "float"

def Numeric.structType : Numeric → String
  | .float => "f32"
  | number => number.tag

/-- Characters of fixed strings and padding bytes are numbers too. Tokens are case-sensitive. -/
def typeTokens : List (String × Numeric) :=
  [("s8", .i8), ("u8", .u8), ("s16", .i16), ("u16", .u16), ("s32", .i32), ("u32", .u32),
   ("s64", .i64), ("u64", .u64), ("f32", .float), ("fixstr", .u8), ("fixstrW", .u16),
   ("dummy8", .u8)]

def Numeric.ofToken? (token : String) : Option Numeric := typeTokens.lookup token

theorem Numeric.bitWidth?_pos (number : Numeric) (width : Nat)
    (wide : number.bitWidth? = some width) : 0 < width := by
  cases number <;> simp [Numeric.bitWidth?] at wide <;> omega

theorem Numeric.bitWidth?_eq_none_iff (number : Numeric) :
    number.bitWidth? = none ↔ number = .float := by
  cases number <;> simp [Numeric.bitWidth?]

/-- A flag takes one bit of its backing number, whatever width it declares. -/
inductive Shape
  | scalar (number : Numeric)
  | array (element : Numeric) (count : Nat)
  | flag (backing : Numeric) (bits : Nat)
  deriving DecidableEq, Repr

structure Field where
  name : String
  shape : Shape
  deriving DecidableEq, Repr

def Shape.backing? : Shape → Option Numeric
  | .flag backing _ => some backing
  | _ => none

def Field.backing? (field : Field) : Option Numeric := field.shape.backing?

def Field.isFlag (field : Field) : Bool := field.backing?.isSome

inductive Fault
  | malformed
  | unknownType (token : String)
  | cannotBack (type : String)
  | widthOutOfRange (backing : Numeric) (bits most : Nat)
  | countTooSmall (count : Nat)
  | unfinishedRun (members capacity : Nat)
  | mixedRun (expected found : Numeric)
  deriving DecidableEq, Repr

def Fault.message : Fault → String
  | .malformed => "definition does not match the array, bitfield or scalar form"
  | .unknownType token => "unknown type token `" ++ token ++ "`"
  | .cannotBack type => "type `" ++ type ++ "` cannot back a bitfield"
  | .widthOutOfRange backing bits most =>
      "bit width " ++ decimal bits ++ " out of range for " ++ backing.label ++
        " (1..=" ++ decimal most ++ ")"
  | .countTooSmall count => "array count " ++ decimal count ++ " must be at least 1"
  | .unfinishedRun members capacity =>
      "bitfield run ended after " ++ decimal members ++ " of " ++ decimal capacity ++ " members"
  | .mixedRun expected found =>
      "bitfield run backed by " ++ expected.label ++ " continues with " ++ found.label

structure PlacedFault where
  index : Nat
  fault : Fault
  deriving DecidableEq, Repr

def PlacedFault.message (placed : PlacedFault) : String :=
  placed.fault.message ++ " (definition #" ++ decimal placed.index ++ ")"

def PlacedFault.shift (offset : Nat) (placed : PlacedFault) : PlacedFault :=
  { placed with index := placed.index + offset }

end BinaryRecord
