import BinaryRecord.Text.Utf8
import Mathlib.Data.String.Basic

/-! Texts as bytes. Main statements: `decodeText?_eq_some_iff`, bytes spell the text whose bytes
they are, `encodeText_lt_iff`, texts stand in the order of their bytes, and
`decodeLossy_encodeText`, the bytes of a text show as that text. -/

namespace BinaryRecord

theorem encodeText_eq (text : String) :
    encodeText text = text.toList.flatMap String.utf8EncodeChar := by
  have bytes : text.toUTF8 = text.toList.utf8Encode := by simp
  rw [encodeText, bytes, List.utf8Encode]
  simp

theorem decodeText?_encodeText (text : String) : decodeText? (encodeText text) = some text := by
  change String.fromUTF8? text.toByteArray = some text
  rw [String.fromUTF8?, dif_pos text.isValidUTF8]
  rfl

theorem decodeText?_eq_some_iff (bytes : List UInt8) (text : String) :
    decodeText? bytes = some text ↔ bytes = encodeText text := by
  constructor
  · intro decoded
    unfold decodeText? String.fromUTF8? at decoded
    split at decoded
    · rw [← Option.some.inj decoded]
      rfl
    · cases decoded
  · rintro rfl
    exact decodeText?_encodeText text

theorem toNat_lt_of_char (c : Char) : c.val.toNat < 0x110000 := by
  rcases c.valid with low | high
  · exact Nat.lt_trans low (by decide)
  · exact high.2

theorem toNat_ofNat_of_byte (n : Nat) (low : n < 256) : (UInt8.ofNat n).toNat = n :=
  UInt8.toNat_ofNat_of_lt' low

/-- A longer form starts with a greater byte, and forms of one length are the digits of the code
points to base 64. -/
theorem utf8EncodeChar_append_lt (c d : Char) (less : c < d) (s t : List UInt8) :
    String.utf8EncodeChar c ++ s < String.utf8EncodeChar d ++ t := by
  have values : c.val.toNat < d.val.toNat := less
  have bound := toNat_lt_of_char d
  simp only [String.utf8EncodeChar]
  generalize c.val.toNat = m at *
  generalize d.val.toNat = n at *
  split_ifs <;>
    simp (disch := omega) only [List.cons_append, List.nil_append, List.cons_lt_cons_iff,
      UInt8.lt_iff_toNat_lt, ← UInt8.toNat_inj, toNat_ofNat_of_byte, Nat.mod_eq_of_lt] <;>
    omega

theorem lt_of_chars_lt (s t : List Char) (less : s < t) :
    s.flatMap String.utf8EncodeChar < t.flatMap String.utf8EncodeChar := by
  induction less with
  | @nil c t =>
      rw [List.flatMap_nil, List.flatMap_cons]
      obtain ⟨byte, bytes, form⟩ :=
        List.exists_cons_of_ne_nil (String.utf8EncodeChar_ne_nil (c := c))
      rw [form]
      exact List.nil_lt_cons _ _
  | @cons c s t _ ih =>
      rw [List.flatMap_cons, List.flatMap_cons]
      exact List.append_left_lt ih
  | @rel c s d t first =>
      rw [List.flatMap_cons, List.flatMap_cons]
      exact utf8EncodeChar_append_lt c d first _ _

theorem encodeText_lt (a b : String) (less : a < b) : encodeText a < encodeText b := by
  rw [encodeText_eq, encodeText_eq]
  exact lt_of_chars_lt _ _ (String.lt_iff_toList_lt.mp less)

theorem encodeText_lt_iff (a b : String) : encodeText a < encodeText b ↔ a < b := by
  constructor
  · intro less
    rcases lt_trichotomy a b with before | same | after
    · exact before
    · subst same
      exact absurd less (List.lt_irrefl _)
    · exact absurd (encodeText_lt b a after) (List.lt_asymm less)
  · exact encodeText_lt a b

section Lossy

variable (n byte : Nat) (rest : List UInt8)

theorem decodeLossyFrom_single (low : byte < 0x80) :
    decodeLossyFrom none (UInt8.ofNat byte :: rest) =
      Char.ofNat byte :: decodeLossyFrom none rest := by
  have value := toNat_ofNat_of_byte byte (by omega)
  simp only [decodeLossyFrom, decodeByte, startChar, value, low, if_true, List.singleton_append]

theorem decodeLossyFrom_begun (pending : PartialChar) (bound : byte < 256)
    (begins : PartialChar.start? byte = some pending) :
    decodeLossyFrom none (UInt8.ofNat byte :: rest) = decodeLossyFrom (some pending) rest := by
  have value := toNat_ofNat_of_byte byte bound
  have high : ¬ byte < 0x80 := by
    intro low
    unfold PartialChar.start? at begins
    split_ifs at begins <;> omega
  simp only [decodeLossyFrom, decodeByte, startChar, value, high, if_false, begins,
    List.nil_append]

theorem decodeLossyFrom_next (owed least greatest begun : Nat) (bound : byte < 256)
    (fits : least ≤ byte ∧ byte ≤ greatest) (more : owed ≠ 1) :
    decodeLossyFrom (some ⟨owed, least, greatest, begun⟩) (UInt8.ofNat byte :: rest) =
      decodeLossyFrom (some ⟨owed - 1, 0x80, 0xBF, begun * 64 + byte % 64⟩) rest := by
  have value := toNat_ofNat_of_byte byte bound
  simp only [decodeLossyFrom, decodeByte, PartialChar.next, value, fits, and_self, if_true, more,
    if_false, List.nil_append]

theorem decodeLossyFrom_last (least greatest begun : Nat) (bound : byte < 256)
    (fits : least ≤ byte ∧ byte ≤ greatest) :
    decodeLossyFrom (some ⟨1, least, greatest, begun⟩) (UInt8.ofNat byte :: rest) =
      Char.ofNat (begun * 64 + byte % 64) :: decodeLossyFrom none rest := by
  have value := toNat_ofNat_of_byte byte bound
  simp only [decodeLossyFrom, decodeByte, PartialChar.next, value, fits, and_self, if_true,
    List.singleton_append]

theorem start?_two (two : 0x80 ≤ n ∧ n < 0x800) :
    PartialChar.start? (n / 64 % 32 + 192) = some ⟨1, 0x80, 0xBF, n / 64⟩ := by
  unfold PartialChar.start?
  have value : n / 64 % 32 + 192 - 0xC0 = n / 64 := by omega
  rw [if_pos (by omega), value]

theorem start?_three (three : 0x800 ≤ n ∧ n < 0x10000) (scalar : n < 0xD800 ∨ 0xDFFF < n) :
    ∃ least greatest, PartialChar.start? (n / 4096 % 16 + 224) =
        some ⟨2, least, greatest, n / 4096⟩ ∧
      least ≤ n / 64 % 64 + 128 ∧ n / 64 % 64 + 128 ≤ greatest := by
  have bound : n / 4096 < 16 := by omega
  unfold PartialChar.start?
  split_ifs with _ first _ _ <;>
    first
      | omega
      | refine ⟨_, _, congrArg some (congrArg _ ?_), ?_, ?_⟩ <;> omega

theorem start?_four (four : 0x10000 ≤ n ∧ n < 0x110000) :
    ∃ least greatest, PartialChar.start? (n / 262144 % 8 + 240) =
        some ⟨3, least, greatest, n / 262144⟩ ∧
      least ≤ n / 4096 % 64 + 128 ∧ n / 4096 % 64 + 128 ≤ greatest := by
  unfold PartialChar.start?
  split_ifs <;>
    first
      | omega
      | refine ⟨_, _, congrArg some (congrArg _ ?_), ?_, ?_⟩ <;> omega

end Lossy

theorem decodeLossyFrom_char (c : Char) (rest : List UInt8) :
    decodeLossyFrom none (String.utf8EncodeChar c ++ rest) = c :: decodeLossyFrom none rest := by
  have same : Char.ofNat c.val.toNat = c := Char.ofNat_toNat c
  have scalar : c.val.toNat < 0xD800 ∨ 0xDFFF < c.val.toNat ∧ c.val.toNat < 0x110000 := c.valid
  simp only [String.utf8EncodeChar]
  generalize c.val.toNat = n at *
  split_ifs with one two three
  · rw [List.singleton_append, decodeLossyFrom_single _ _ (by omega), same]
  · rw [List.cons_append, List.singleton_append,
      decodeLossyFrom_begun _ _ _ (by omega) (start?_two n (by omega)),
      decodeLossyFrom_last _ _ _ _ _ (by omega) (by omega)]
    have value : n / 64 * 64 + (n % 64 + 128) % 64 = n := by omega
    rw [value, same]
  · obtain ⟨least, greatest, begins, fits⟩ := start?_three n (by omega) (by omega)
    rw [List.cons_append, List.cons_append, List.singleton_append,
      decodeLossyFrom_begun _ _ _ (by omega) begins,
      decodeLossyFrom_next _ _ _ _ _ _ (by omega) fits (by decide),
      decodeLossyFrom_last _ _ _ _ _ (by omega) (by omega)]
    have value : (n / 4096 * 64 + (n / 64 % 64 + 128) % 64) * 64 + (n % 64 + 128) % 64 = n := by
      omega
    rw [value, same]
  · obtain ⟨least, greatest, begins, fits⟩ := start?_four n (by omega)
    rw [List.cons_append, List.cons_append, List.cons_append, List.singleton_append,
      decodeLossyFrom_begun _ _ _ (by omega) begins,
      decodeLossyFrom_next _ _ _ _ _ _ (by omega) fits (by decide),
      decodeLossyFrom_next _ _ _ _ _ _ (by omega) (by omega) (by decide),
      decodeLossyFrom_last _ _ _ _ _ (by omega) (by omega)]
    have value : ((n / 262144 * 64 + (n / 4096 % 64 + 128) % 64) * 64 +
        (n / 64 % 64 + 128) % 64) * 64 + (n % 64 + 128) % 64 = n := by
      omega
    rw [value, same]

theorem decodeLossy_encodeText (text : String) : decodeLossy (encodeText text) = text := by
  have chars : ∀ chars : List Char,
      decodeLossyFrom none (chars.flatMap String.utf8EncodeChar) = chars := by
    intro chars
    induction chars with
    | nil => rfl
    | cons c chars ih => rw [List.flatMap_cons, decodeLossyFrom_char, ih]
  rw [decodeLossy, encodeText_eq, chars, String.ofList_toList]
end BinaryRecord
