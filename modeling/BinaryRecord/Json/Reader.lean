import BinaryRecord.Json

/-! Reading JSON. A text is cut into tokens, and the tokens are put together with a stack of the
lists and objects that are still open. -/

namespace BinaryRecord

inductive Token
  | text (value : String)
  | number (value : Nat)
  | listStart
  | listEnd
  | objectStart
  | objectEnd
  | comma
  | colon
  deriving DecidableEq, Repr

def punctuation : List (Char × Token) :=
  [('[', .listStart), (']', .listEnd), ('\x7b', .objectStart), ('\x7d', .objectEnd), (',', .comma),
   (':', .colon)]

def isSpacing (c : Char) : Bool := c = ' ' || c = '\t' || c = '\n' || c = '\r'

def hexDigit? (c : Char) : Option Nat :=
  (List.range 16).find? fun digit => Nat.digitChar digit = c

def jsonEscapes : List (Char × Char) :=
  [('"', '"'), ('\\', '\\'), ('/', '/'), ('b', '\x08'), ('t', '\t'), ('n', '\n'), ('f', '\x0c'),
   ('r', '\r')]

/-- The character of a code point below U+10000. One half of a surrogate pair is none. -/
def codeChar? (a b c d : Char) : Option Char := do
  let code := 16 * (16 * (16 * (← hexDigit? a) + (← hexDigit? b)) + (← hexDigit? c)) +
    (← hexDigit? d)
  if code.isValidChar then some (Char.ofNat code) else none

def readQuoted? : List Char → Option (List Char × List Char)
  | [] => none
  | '"' :: rest => some ([], rest)
  | '\\' :: 'u' :: a :: b :: c :: d :: rest =>
      (codeChar? a b c d).bind fun first => (readQuoted? rest).map (Prod.map (first :: ·) id)
  | '\\' :: mark :: rest =>
      (jsonEscapes.lookup mark).bind fun first => (readQuoted? rest).map (Prod.map (first :: ·) id)
  | c :: rest =>
      if c.toNat < 0x20 then none else (readQuoted? rest).map (Prod.map (c :: ·) id)

def readToken? : List Char → Option (Token × List Char)
  | [] => none
  | c :: rest =>
      if c = '"' then
        (readQuoted? rest).map (Prod.map (fun chars => .text (String.ofList chars)) id)
      else match punctuation.lookup c with
        | some token => some (token, rest)
        | none => (readRun? Char.isDigit (c :: rest)).map (Prod.map (.number ∘ numeralValue) id)

theorem length_of_map_prod {α β : Type} (f : α → β) (read : Option (α × List Char)) (bound : Nat)
    (shorter : ∀ value rest, read = some (value, rest) → rest.length < bound) :
    ∀ value rest, read.map (Prod.map f id) = some (value, rest) → rest.length < bound := by
  intro value rest mapped
  obtain ⟨⟨first, later⟩, found, same⟩ := Option.map_eq_some_iff.mp mapped
  obtain ⟨-, rfl⟩ := Prod.mk.inj same
  exact shorter first later found

theorem length_of_readQuoted? (s : List Char) :
    ∀ chars rest, readQuoted? s = some (chars, rest) → rest.length < s.length := by
  fun_induction readQuoted? s with
  | case1 => simp
  | case2 tail => simp
  | case3 a b c d tail ih =>
      intro chars rest read
      obtain ⟨first, -, later⟩ := Option.bind_eq_some_iff.mp read
      have shorter := length_of_map_prod _ _ _ ih _ _ later
      simp only [List.length_cons]
      omega
  | case4 mark tail _ ih =>
      intro chars rest read
      obtain ⟨first, -, later⟩ := Option.bind_eq_some_iff.mp read
      have shorter := length_of_map_prod _ _ _ ih _ _ later
      simp only [List.length_cons]
      omega
  | case5 c tail => simp
  | case6 c tail _ _ _ _ ih =>
      intro chars rest read
      have shorter := length_of_map_prod _ _ _ ih _ _ read
      simp only [List.length_cons]
      omega

theorem length_of_readToken? (s : List Char) :
    ∀ token rest, readToken? s = some (token, rest) → rest.length < s.length := by
  unfold readToken?
  split
  · simp
  next c tail =>
  split
  · apply length_of_map_prod
    intro chars rest read
    exact Nat.lt_succ_of_lt (length_of_readQuoted? tail chars rest read)
  split
  · simp
  · apply length_of_map_prod
    intro digits rest read
    obtain ⟨whole, isRun⟩ := readRun?_eq_some _ _ _ _ read
    have nonempty := List.length_pos_iff.mpr isRun.nonempty
    rw [whole, List.length_append]
    omega

def readTokens? (s : List Char) : Option (List Token) :=
  match _spaced : s.dropWhile isSpacing with
  | [] => some []
  | c :: rest =>
      match _read : readToken? (c :: rest) with
      | none => none
      | some (token, later) => (readTokens? later).map (token :: ·)
termination_by s.length
decreasing_by
  have shorter := length_of_readToken? _ _ _ _read
  have whole := (List.dropWhile_suffix isSpacing (l := s)).length_le
  rw [_spaced] at whole
  omega

/-- A list or an object that is not closed yet, with what stands before the value to come, last one
first. -/
inductive Frame
  | list (before : List Json)
  | object (before : List (String × Json)) (key : String)

mutual

def readValue? : List Frame → List Token → Option Json
  | stack, .text value :: rest => readAfter? stack (.text value) rest
  | stack, .number value :: rest => readAfter? stack (.number value) rest
  | stack, .listStart :: .listEnd :: rest => readAfter? stack (.list []) rest
  | stack, .listStart :: rest => readValue? (.list [] :: stack) rest
  | stack, .objectStart :: .objectEnd :: rest => readAfter? stack (.object []) rest
  | stack, .objectStart :: .text key :: .colon :: rest => readValue? (.object [] key :: stack) rest
  | _, _ => none

def readAfter? : List Frame → Json → List Token → Option Json
  | [], value, [] => some value
  | .list before :: stack, value, .comma :: rest =>
      readValue? (.list (value :: before) :: stack) rest
  | .list before :: stack, value, .listEnd :: rest =>
      readAfter? stack (.list (value :: before).reverse) rest
  | .object before last :: stack, value, .comma :: .text key :: .colon :: rest =>
      readValue? (.object ((last, value) :: before) key :: stack) rest
  | .object before last :: stack, value, .objectEnd :: rest =>
      readAfter? stack (.object ((last, value) :: before).reverse) rest
  | _, _, _ => none

end

def Json.read? (text : String) : Option Json := (readTokens? text.toList).bind (readValue? [])

end BinaryRecord
