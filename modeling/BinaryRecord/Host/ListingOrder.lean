import BinaryRecord.Storage.Entry

/-! The order in which a folder lists its entries: by a hash of their names. The hash compresses a
name with three rounds of eight MD4 steps for every 32 bytes. -/

namespace BinaryRecord

structure HashState where
  a : UInt32
  b : UInt32
  c : UInt32
  d : UInt32

def HashState.seed : HashState := ⟨0x67452301, 0xEFCDAB89, 0x98BADCFE, 0x10325476⟩

def HashState.add (x y : HashState) : HashState := ⟨x.a + y.a, x.b + y.b, x.c + y.c, x.d + y.d⟩

def rotateLeft (x amount : UInt32) : UInt32 := x <<< amount ||| x >>> (32 - amount)

/-- A round: how it mixes three words, what it adds, which word of the block each step takes, and
how far the four registers are rotated in turn. -/
structure HashRound where
  mix : UInt32 → UInt32 → UInt32 → UInt32
  constant : UInt32
  order : List Nat
  shifts : List UInt32

def hashRounds : List HashRound :=
  [⟨fun x y z => z ^^^ (x &&& (y ^^^ z)), 0,
    [0, 1, 2, 3, 4, 5, 6, 7], [3, 7, 11, 19]⟩,
   ⟨fun x y z => (x &&& y) + ((x ^^^ y) &&& z), 0x5A827999,
    [1, 3, 5, 7, 0, 2, 4, 6], [3, 5, 9, 13]⟩,
   ⟨fun x y z => x ^^^ y ^^^ z, 0x6ED9EBA1,
    [3, 7, 2, 6, 1, 5, 0, 4], [3, 9, 11, 15]⟩]

def HashRound.step (round : HashRound) (block : List UInt32) (state : HashState)
    (place : Nat × UInt32) : HashState :=
  let sum := state.a + round.mix state.b state.c state.d + block.getD place.1 0 + round.constant
  ⟨state.d, rotateLeft sum place.2, state.b, state.c⟩

def HashRound.run (round : HashRound) (block : List UInt32) (state : HashState) : HashState :=
  (round.order.zip (round.shifts ++ round.shifts)).foldl (round.step block) state

def HashState.compress (state : HashState) (block : List UInt32) : HashState :=
  state.add (hashRounds.foldl (fun current round => round.run block current) state)

def signedWord (byte : UInt8) : UInt32 := byte.toInt8.toInt32.toUInt32

/-- Four bytes of a name in one word. Words past the end of the name hold its length, which also
stands above the bytes of a word that the name fills in part. -/
def packWord (filler : UInt32) (bytes : List UInt8) : UInt32 :=
  bytes.foldl (fun word byte => signedWord byte + word <<< 8) filler

def fillerWord (length : Nat) : UInt32 :=
  let word := UInt32.ofNat length
  let pair := word ||| word <<< 8
  pair ||| pair <<< 16

def hashBlock (name : FileName) : List UInt32 :=
  (List.range 8).map fun i =>
    packWord (fillerWord name.length) ((name.take 32).drop (4 * i) |>.take 4)

def hashName (state : HashState) (name : FileName) : HashState :=
  if name.isEmpty then state
  else hashName (state.compress (hashBlock name)) (name.drop 32)
termination_by name.length
decreasing_by
  simp only [List.isEmpty_iff] at *
  have := List.length_pos_iff.mpr ‹_›
  simp only [List.length_drop]
  omega

/-- The lowest bit of the first half is not part of the order. -/
def listingKey (name : FileName) : Nat × Nat :=
  let state := hashName .seed name
  (state.b.toNat / 2, state.c.toNat)

def listsBefore (first second : FileName) : Bool :=
  let x := listingKey first
  let y := listingKey second
  x.1 < y.1 || (x.1 = y.1 && x.2 ≤ y.2)

end BinaryRecord
