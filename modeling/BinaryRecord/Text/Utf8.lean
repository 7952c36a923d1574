/-! UTF-8. `decodeLossy` reads any bytes, with U+FFFD for each longest piece that starts a
character without finishing it, and for each byte that starts none. -/

namespace BinaryRecord

/-- A character begun: how many bytes it still needs, the least and the greatest value of the next
one, and the value of its bits so far. -/
structure PartialChar where
  owed : Nat
  least : Nat
  greatest : Nat
  value : Nat
  deriving DecidableEq, Repr

/-- The ranges of the second byte keep out overlong forms, surrogates and values past U+10FFFF. -/
def PartialChar.start? (byte : Nat) : Option PartialChar :=
  if 0xC2 ≤ byte ∧ byte ≤ 0xDF then some ⟨1, 0x80, 0xBF, byte - 0xC0⟩
  else if byte = 0xE0 then some ⟨2, 0xA0, 0xBF, 0⟩
  else if byte = 0xED then some ⟨2, 0x80, 0x9F, 0xD⟩
  else if 0xE1 ≤ byte ∧ byte ≤ 0xEF then some ⟨2, 0x80, 0xBF, byte - 0xE0⟩
  else if byte = 0xF0 then some ⟨3, 0x90, 0xBF, 0⟩
  else if byte = 0xF4 then some ⟨3, 0x80, 0x8F, 4⟩
  else if 0xF1 ≤ byte ∧ byte ≤ 0xF3 then some ⟨3, 0x80, 0xBF, byte - 0xF0⟩
  else none

def replacementChar : Char := '\uFFFD'

def startChar (byte : Nat) : List Char × Option PartialChar :=
  if byte < 0x80 then ([Char.ofNat byte], none)
  else match PartialChar.start? byte with
    | some begun => ([], some begun)
    | none => ([replacementChar], none)

def PartialChar.next (pending : PartialChar) (byte : Nat) : List Char × Option PartialChar :=
  if pending.least ≤ byte ∧ byte ≤ pending.greatest then
    let value := pending.value * 64 + byte % 64
    if pending.owed = 1 then ([Char.ofNat value], none)
    else ([], some ⟨pending.owed - 1, 0x80, 0xBF, value⟩)
  else
    let (chars, begun) := startChar byte
    (replacementChar :: chars, begun)

def decodeByte (pending : Option PartialChar) (byte : UInt8) : List Char × Option PartialChar :=
  match pending with
  | none => startChar byte.toNat
  | some begun => begun.next byte.toNat

def decodeLossyFrom (pending : Option PartialChar) : List UInt8 → List Char
  | [] => if pending.isSome then [replacementChar] else []
  | byte :: rest =>
      let (chars, begun) := decodeByte pending byte
      chars ++ decodeLossyFrom begun rest

def decodeLossy (bytes : List UInt8) : String := String.ofList (decodeLossyFrom none bytes)

def encodeText (text : String) : List UInt8 := text.toUTF8.data.toList

def decodeText? (bytes : List UInt8) : Option String := String.fromUTF8? ⟨bytes.toArray⟩

end BinaryRecord
