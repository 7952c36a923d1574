import BinaryRecord.Text.Run

namespace BinaryRecord

abbrev CharSet := List (Nat × Nat)

def CharSet.contains (set : CharSet) (c : Char) : Bool :=
  set.any fun range => range.1 ≤ c.toNat && c.toNat ≤ range.2

theorem CharSet.contains_iff (set : CharSet) (c : Char) :
    set.contains c = true ↔ ∃ range ∈ set, range.1 ≤ c.toNat ∧ c.toNat ≤ range.2 := by
  simp [CharSet.contains]

theorem CharSet.contains_eq_false_of_apart (first second : CharSet)
    (apart : ∀ a ∈ first, ∀ b ∈ second, a.2 < b.1 ∨ b.2 < a.1) (c : Char)
    (inside : first.contains c = true) : second.contains c = false := by
  rcases (first.contains_iff c).mp inside with ⟨range, member, least, most⟩
  rw [← Bool.not_eq_true, second.contains_iff]
  rintro ⟨other, otherMember, otherLeast, otherMost⟩
  have differ := apart range member other otherMember
  omega

def whiteSpace : CharSet :=
  [(0x09, 0x0D), (0x20, 0x20), (0x85, 0x85), (0xA0, 0xA0), (0x1680, 0x1680), (0x2000, 0x200A),
   (0x2028, 0x2029), (0x202F, 0x202F), (0x205F, 0x205F), (0x3000, 0x3000)]

def isBlank (c : Char) : Bool := whiteSpace.contains c

def trimStart (s : List Char) : List Char := s.dropWhile isBlank

def trimEnd (s : List Char) : List Char := (s.reverse.dropWhile isBlank).reverse

def trim (s : List Char) : List Char := trimEnd (trimStart s)

theorem isBlank_of_printed (c : Char) (least : 0x21 ≤ c.toNat) (most : c.toNat ≤ 0x7E) :
    isBlank c = false := by
  apply CharSet.contains_eq_false_of_apart [(0x21, 0x7E)] whiteSpace (by decide) c
  simp [CharSet.contains, least, most]

/-- Unicode places the decimal digits of each script in one run of ten; these are the zeros. -/
def decimalZeros : List Nat :=
  [0x30, 0x660, 0x6F0, 0x7C0, 0x966, 0x9E6, 0xA66, 0xAE6, 0xB66, 0xBE6, 0xC66, 0xCE6, 0xD66, 0xDE6,
   0xE50, 0xED0, 0xF20, 0x1040, 0x1090, 0x17E0, 0x1810, 0x1946, 0x19D0, 0x1A80, 0x1A90, 0x1B50,
   0x1BB0, 0x1C40, 0x1C50, 0xA620, 0xA8D0, 0xA900, 0xA9D0, 0xA9F0, 0xAA50, 0xABF0, 0xFF10, 0x104A0,
   0x10D30, 0x10D40, 0x11066, 0x110F0, 0x11136, 0x111D0, 0x112F0, 0x11450, 0x114D0, 0x11650,
   0x116C0, 0x116D0, 0x116DA, 0x11730, 0x118E0, 0x11950, 0x11BF0, 0x11C50, 0x11D50, 0x11DA0,
   0x11DE0, 0x11F50, 0x16130, 0x16A60, 0x16AC0, 0x16B50, 0x16D70, 0x1CCF0, 0x1D7CE, 0x1D7D8,
   0x1D7E2, 0x1D7EC, 0x1D7F6, 0x1E140, 0x1E2F0, 0x1E4F0, 0x1E5F1, 0x1E950, 0x1FBF0]

def decimalDigits : CharSet := decimalZeros.map fun first => (first, first + 9)

def isDecimal (c : Char) : Bool := decimalDigits.contains c

def numeralValue (digits : List Char) : Nat := Nat.ofDigitChars 10 digits 0

/-- Two to the power of 64. The largest number that a count, an ordinal or a row id can take is one
less. -/
def wordLimit : Nat := 18446744073709551616

def decimal (n : Nat) : String := String.ofList (Nat.toDigits 10 n)

theorem isDecimal_of_isDigit (c : Char) (digit : c.isDigit = true) : isDecimal c = true := by
  simp only [Char.isDigit, Bool.and_eq_true, decide_eq_true_eq, ge_iff_le,
    UInt32.le_iff_toNat_le] at digit
  refine (decimalDigits.contains_iff c).mpr ⟨(0x30, 0x39), ?_, digit.1, digit.2⟩
  simp [decimalDigits, decimalZeros]

theorem numeralValue_decimal (n : Nat) : numeralValue (decimal n).toList = n := by
  simp [numeralValue, decimal, Nat.ofDigitChars_toDigits]

theorem numeralValue_zeros (zeros : Nat) (digits : List Char) :
    numeralValue (List.replicate zeros '0' ++ digits) = numeralValue digits := by
  rw [numeralValue, Nat.ofDigitChars_append, Nat.ofDigitChars_replicate_zero, Nat.mul_zero,
    numeralValue]

theorem isDigit_of_mem_decimal (n : Nat) (c : Char) (member : c ∈ (decimal n).toList) :
    c.isDigit = true := by
  apply Nat.isDigit_of_mem_toDigits (b := 10) (n := n) (by decide) (by decide)
  simpa [decimal] using member

theorem isRun_decimal (n : Nat) : IsRun Char.isDigit (decimal n).toList := by
  refine ⟨?_, isDigit_of_mem_decimal n⟩
  simp [decimal, Nat.toDigits_ne_nil]

theorem decimal_injective (m n : Nat) (same : decimal m = decimal n) : m = n := by
  rw [← numeralValue_decimal m, same, numeralValue_decimal]

end BinaryRecord
