import BinaryRecord.Json.Reader

/-! Reading gives a document back from its text. Main statement: `Json.read?_render`. -/

namespace BinaryRecord

theorem Json.forall_of_inside {holds : Json → Prop} (text : ∀ value, holds (.text value))
    (number : ∀ value, holds (.number value))
    (list : ∀ items, (∀ item ∈ items, holds item) → holds (.list items))
    (object : ∀ entries, (∀ entry ∈ entries, holds entry.2) → holds (.object entries)) :
    ∀ document, holds document
  | .text value => text value
  | .number value => number value
  | .list items => list items fun item _ => forall_of_inside text number list object item
  | .object entries =>
      object entries fun entry _ => forall_of_inside text number list object entry.2
termination_by document => sizeOf document
decreasing_by
  · next inside =>
    have := List.sizeOf_lt_of_mem inside
    simp only [Json.list.sizeOf_spec]
    omega
  · next inside =>
    have := List.sizeOf_lt_of_mem inside
    have : sizeOf entry.2 < sizeOf entry := by
      cases entry
      simp only [Prod.mk.sizeOf_spec]
      omega
    simp only [Json.object.sizeOf_spec]
    omega

theorem Json.renderItems_eq (depth : Nat) (items : List Json) :
    Json.renderItems depth items = items.map (Json.renderAt depth) := by
  induction items with
  | nil => rfl
  | cons item items ih => rw [Json.renderItems, ih, List.map_cons]

theorem Json.renderEntries_eq (depth : Nat) (entries : List (String × Json)) :
    Json.renderEntries depth entries =
      entries.map fun entry => quoteJson entry.1 ++ ": " ++ entry.2.renderAt depth := by
  induction entries with
  | nil => rfl
  | cons entry entries ih => rw [Json.renderEntries, ih, List.map_cons]

mutual

def Json.tokens : Json → List Token
  | .text value => [.text value]
  | .number value => [.number value]
  | .list items => .listStart :: [.comma].intercalate (Json.itemTokens items) ++ [.listEnd]
  | .object entries =>
      .objectStart :: [.comma].intercalate (Json.entryTokens entries) ++ [.objectEnd]

def Json.itemTokens : List Json → List (List Token)
  | [] => []
  | item :: items => item.tokens :: Json.itemTokens items

def Json.entryTokens : List (String × Json) → List (List Token)
  | [] => []
  | (key, value) :: entries =>
      (.text key :: .colon :: value.tokens) :: Json.entryTokens entries

end

theorem Json.itemTokens_eq (items : List Json) : Json.itemTokens items = items.map Json.tokens := by
  induction items with
  | nil => rfl
  | cons item items ih => rw [Json.itemTokens, ih, List.map_cons]

theorem Json.entryTokens_eq (entries : List (String × Json)) :
    Json.entryTokens entries =
      entries.map fun entry => .text entry.1 :: .colon :: entry.2.tokens := by
  induction entries with
  | nil => rfl
  | cons entry entries ih => rw [Json.entryTokens, ih, List.map_cons]

theorem intercalate_cons_head {α : Type} (separator piece : List α) (first : α)
    (pieces : List (List α)) :
    separator.intercalate ((first :: piece) :: pieces) =
      first :: separator.intercalate (piece :: pieces) := by
  cases pieces with
  | nil => rfl
  | cons next pieces => rw [List.intercalate_cons_cons, List.intercalate_cons_cons]; rfl

theorem Json.exists_tokens (document : Json) :
    ∃ first back, document.tokens = first :: back ∧ first ≠ .listEnd := by
  cases document <;> simp [Json.tokens]

/-- Reading a document leaves what follows to be read behind its value. -/
def Json.Recovered (document : Json) : Prop :=
  ∀ stack rest, readValue? stack (document.tokens ++ rest) = readAfter? stack document rest

section Stack

variable (stack : List Frame) (rest : List Token)

theorem readValue?_listStart (first : Token) (opens : first ≠ .listEnd) :
    readValue? stack (.listStart :: first :: rest) =
      readValue? (.list [] :: stack) (first :: rest) := by
  rw [readValue?]
  intro _ same
  exact opens (List.cons.inj same).1

theorem readValue?_items (before : List Json) (item : Json) (items : List Json)
    (recovered : ∀ inside ∈ item :: items, inside.Recovered) :
    readValue? (.list before :: stack)
        ([.comma].intercalate (Json.itemTokens (item :: items)) ++ .listEnd :: rest) =
      readAfter? stack (.list (before.reverse ++ item :: items)) rest := by
  induction items generalizing before item with
  | nil =>
      rw [Json.itemTokens, Json.itemTokens, List.intercalate_singleton,
        recovered item (by simp), readAfter?, List.reverse_cons]
  | cons next items ih =>
      have later := ih (item :: before) next
        fun inside member => recovered inside (List.mem_cons_of_mem _ member)
      rw [Json.itemTokens, Json.itemTokens, List.intercalate_cons_cons, List.append_assoc,
        List.append_assoc, recovered item (by simp), List.singleton_append, readAfter?]
      rw [Json.itemTokens, List.reverse_cons, List.append_assoc] at later
      exact later

theorem readValue?_entries (before : List (String × Json)) (key : String) (value : Json)
    (entries : List (String × Json))
    (recovered : ∀ inside ∈ (key, value) :: entries, inside.2.Recovered) :
    readValue? (.object before key :: stack)
        ([.comma].intercalate (value.tokens :: Json.entryTokens entries) ++ .objectEnd :: rest) =
      readAfter? stack (.object (before.reverse ++ (key, value) :: entries)) rest := by
  induction entries generalizing before key value with
  | nil =>
      rw [Json.entryTokens, List.intercalate_singleton, recovered (key, value) (by simp),
        readAfter?, List.reverse_cons]
  | cons next entries ih =>
      have later := ih ((key, value) :: before) next.1 next.2
        fun inside member => recovered inside (List.mem_cons_of_mem _ member)
      rw [Json.entryTokens, List.intercalate_cons_cons, intercalate_cons_head,
        intercalate_cons_head, List.append_assoc, List.append_assoc,
        recovered (key, value) (by simp)]
      rw [List.reverse_cons, List.append_assoc] at later
      exact later

end Stack

theorem Json.recovered (document : Json) : document.Recovered := by
  induction document using Json.forall_of_inside with
  | text value => exact fun stack rest => rfl
  | number value => exact fun stack rest => rfl
  | list items inside =>
      intro stack rest
      cases items with
      | nil => rfl
      | cons item items =>
          have all := readValue?_items stack rest [] item items inside
          obtain ⟨first, back, shape, opens⟩ := item.exists_tokens
          rw [Json.itemTokens, shape, intercalate_cons_head] at all
          rw [Json.tokens, Json.itemTokens, shape, intercalate_cons_head, List.append_assoc]
          exact (readValue?_listStart stack _ first opens).trans all
  | object entries inside =>
      intro stack rest
      cases entries with
      | nil => rfl
      | cons entry entries =>
          rw [Json.tokens, Json.entryTokens, intercalate_cons_head, intercalate_cons_head,
            List.append_assoc]
          exact readValue?_entries stack rest [] entry.1 entry.2 entries inside

section Quoted

variable (rest : List Char)

theorem readQuoted?_escape (mark c : Char) (known : jsonEscapes.lookup mark = some c) :
    readQuoted? ('\\' :: mark :: rest) = (readQuoted? rest).map (Prod.map (c :: ·) id) := by
  rw [readQuoted?, known]
  · rfl
  · rintro _ _ _ _ _ ⟨⟩ -
    cases known

theorem codeChar?_hexPair : ∀ code < 0x20, ∃ high low, hexPair code = [high, low] ∧
    codeChar? '0' '0' high low = some (Char.ofNat code) := by
  intro code bound
  refine ⟨_, _, rfl, ?_⟩
  revert code
  decide

theorem readQuoted?_code (c : Char) (control : c.toNat < 0x20) :
    readQuoted? (['\\', 'u', '0', '0'] ++ hexPair c.toNat ++ rest) =
      (readQuoted? rest).map (Prod.map (c :: ·) id) := by
  obtain ⟨high, low, digits, read⟩ := codeChar?_hexPair c.toNat control
  rw [Char.ofNat_toNat] at read
  rw [digits]
  change readQuoted? ('\\' :: 'u' :: '0' :: '0' :: high :: low :: rest) = _
  rw [readQuoted?, read]
  rfl

theorem readQuoted?_plain (c : Char) (notQuote : c ≠ '"') (notMark : c ≠ '\\')
    (shown : 0x20 ≤ c.toNat) :
    readQuoted? (c :: rest) = (readQuoted? rest).map (Prod.map (c :: ·) id) := by
  rw [readQuoted?, if_neg (Nat.not_lt.mpr shown)]
  · exact notQuote
  · intro _ _ _ _ _ isMark
    exact absurd isMark notMark
  · intro _ _ isMark
    exact absurd isMark notMark

theorem readQuoted?_jsonChar (c : Char) :
    readQuoted? (jsonChar c ++ rest) = (readQuoted? rest).map (Prod.map (c :: ·) id) := by
  unfold jsonChar
  split
  · next quote => exact readQuoted?_escape rest '"' c (quote.symm ▸ rfl)
  next notQuote =>
  split
  · next mark => exact readQuoted?_escape rest '\\' c (mark.symm ▸ rfl)
  next notMark =>
  split
  · next back => exact readQuoted?_escape rest 'b' c (back ▸ rfl)
  split
  · next tab => exact readQuoted?_escape rest 't' c (tab ▸ rfl)
  split
  · next feed => exact readQuoted?_escape rest 'n' c (feed ▸ rfl)
  split
  · next form => exact readQuoted?_escape rest 'f' c (form ▸ rfl)
  split
  · next carriage => exact readQuoted?_escape rest 'r' c (carriage ▸ rfl)
  split
  · next control => exact readQuoted?_code rest c control
  · next shown => exact readQuoted?_plain rest c notQuote notMark (Nat.not_lt.mp shown)

theorem readQuoted?_quoted (chars : List Char) :
    readQuoted? (chars.flatMap jsonChar ++ '"' :: rest) = some (chars, rest) := by
  induction chars with
  | nil => rfl
  | cons c chars ih =>
      rw [List.flatMap_cons, List.append_assoc, readQuoted?_jsonChar, ih]
      rfl

end Quoted

section Tokens

theorem readTokens?_eq (s : List Char) :
    readTokens? s =
      if s.dropWhile isSpacing = [] then some []
      else (readToken? (s.dropWhile isSpacing)).bind fun (token, later) =>
        (readTokens? later).map (token :: ·) := by
  rw [readTokens?]
  split
  · next none => rw [if_pos none]
  · next c rest some =>
      rw [some, if_neg (List.cons_ne_nil c rest)]
      split
      · next failed => rw [failed]; rfl
      · next token later read => rw [read]; rfl

theorem readTokens?_spacing (gap s : List Char) (spacing : ∀ c ∈ gap, isSpacing c = true) :
    readTokens? (gap ++ s) = readTokens? s := by
  rw [readTokens?_eq (gap ++ s), readTokens?_eq s, List.dropWhile_append_of_pos spacing]

theorem not_isSpacing_of_readToken? (c : Char) (s rest : List Char) (token : Token)
    (read : readToken? (c :: s) = some (token, rest)) : isSpacing c = false := by
  rw [Bool.eq_false_iff]
  intro spacing
  simp only [isSpacing, Bool.or_eq_true, decide_eq_true_eq] at spacing
  rcases spacing with ((rfl | rfl) | rfl) | rfl <;> cases read

theorem readTokens?_token (s rest : List Char) (token : Token)
    (read : readToken? s = some (token, rest)) :
    readTokens? s = (readTokens? rest).map (token :: ·) := by
  cases s with
  | nil => cases read
  | cons c s =>
      have kept : (c :: s).dropWhile isSpacing = c :: s :=
        List.dropWhile_cons_of_neg (by simp [not_isSpacing_of_readToken? c s rest token read])
      rw [readTokens?_eq, kept, if_neg (List.cons_ne_nil c s), read]
      rfl

theorem readToken?_punctuation (c : Char) (token : Token) (rest : List Char)
    (known : punctuation.lookup c = some token) : readToken? (c :: rest) = some (token, rest) := by
  rw [readToken?, if_neg, known]
  rintro rfl
  cases known

theorem readToken?_quoteJson (value : String) (rest : List Char) :
    readToken? ((quoteJson value).toList ++ rest) = some (.text value, rest) := by
  have read := readQuoted?_quoted rest value.toList
  simp only [quoteJson, String.toList_ofList, List.cons_append, List.append_assoc,
    List.nil_append]
  rw [readToken?, if_pos rfl, read]
  simp

theorem readToken?_digits (digits rest : List Char) (isRun : IsRun Char.isDigit digits)
    (stops : Stops Char.isDigit rest) :
    readToken? (digits ++ rest) = some (.number (numeralValue digits), rest) := by
  have run := readRun?_append Char.isDigit digits rest isRun stops
  obtain ⟨c, digits, rfl⟩ := List.exists_cons_of_ne_nil isRun.nonempty
  have digit := isRun.all c (by simp)
  have notQuote : c ≠ '"' := by
    rintro rfl
    cases digit
  have unknown : punctuation.lookup c = none := by
    have marks : ∀ entry ∈ punctuation, entry.1.isDigit = false := by decide
    apply List.lookup_eq_none_iff.mpr
    intro entry member
    have mark := marks entry member
    rw [bne_iff_ne]
    rintro rfl
    cases digit.symm.trans mark
  rw [List.cons_append] at run ⊢
  rw [readToken?, if_neg notQuote, unknown, run]
  rfl

/-- A text reads as these tokens wherever no digit follows it. -/
def Spells (text : List Char) (tokens : List Token) : Prop :=
  ∀ rest, Stops Char.isDigit rest →
    readTokens? (text ++ rest) = (readTokens? rest).map (tokens ++ ·)

theorem spells_nil : Spells [] [] := by
  intro rest _
  simp

theorem Spells.append {text other : List Char} {tokens more : List Token}
    (spells : Spells text tokens) (otherSpells : Spells other more)
    (stops : Stops Char.isDigit other) : Spells (text ++ other) (tokens ++ more) := by
  intro rest restStops
  have follows : Stops Char.isDigit (other ++ rest) := by
    cases other with
    | nil => exact restStops
    | cons c other => exact stops_cons _ c _ (stops c rfl)
  rw [List.append_assoc, spells _ follows, otherSpells rest restStops, Option.map_map]
  simp [Function.comp_def]

theorem Spells.spaced {text : List Char} {tokens : List Token} (spells : Spells text tokens)
    (gap : List Char) (spacing : ∀ c ∈ gap, isSpacing c = true) : Spells (gap ++ text) tokens := by
  intro rest stops
  rw [List.append_assoc, readTokens?_spacing gap _ spacing, spells rest stops]

theorem Spells.marked {text : List Char} {tokens : List Token} (spells : Spells text tokens)
    (c : Char) (token : Token) (known : punctuation.lookup c = some token) :
    Spells (c :: text) (token :: tokens) := by
  intro rest stops
  rw [List.cons_append, readTokens?_token _ _ _ (readToken?_punctuation c token _ known),
    spells rest stops, Option.map_map]
  rfl

theorem spells_quoteJson (value : String) : Spells (quoteJson value).toList [.text value] := by
  intro rest _
  exact readTokens?_token _ rest _ (readToken?_quoteJson value rest)

theorem spells_decimal (value : Nat) : Spells (decimal value).toList [.number value] := by
  intro rest stops
  have read := readToken?_digits _ rest (isRun_decimal value) stops
  rw [numeralValue_decimal] at read
  exact readTokens?_token _ rest _ read

theorem spells_entry (key : String) (text : String) (tokens : List Token)
    (spells : Spells text.toList tokens) :
    Spells (quoteJson key ++ ": " ++ text).toList (.text key :: .colon :: tokens) := by
  have value := (spells.spaced [' '] (List.forall_mem_singleton.mpr rfl)).marked ':' .colon rfl
  have whole := (spells_quoteJson key).append value (stops_cons _ ':' _ rfl)
  simpa using whole

theorem toList_newLine (depth : Nat) :
    (newLine depth).toList = '\n' :: List.replicate (2 * depth) ' ' := by
  simp [newLine]

theorem isSpacing_newLine (depth : Nat) : ∀ c ∈ (newLine depth).toList, isSpacing c = true := by
  intro c member
  rw [toList_newLine, List.mem_cons] at member
  rcases member with rfl | blank
  · rfl
  · rw [List.eq_of_mem_replicate blank]
    rfl

section Pieces

variable {α : Type} (text : α → String) (piece : α → List Token)

theorem spells_intercalate (depth : Nat) (item : α) (items : List α)
    (spells : ∀ inside ∈ item :: items, Spells (text inside).toList (piece inside)) :
    Spells (String.intercalate ("," ++ newLine depth) ((item :: items).map text)).toList
      ([.comma].intercalate ((item :: items).map piece)) := by
  induction items generalizing item with
  | nil => simpa using spells item (by simp)
  | cons next items ih =>
      have later := ih next fun inside member => spells inside (List.mem_cons_of_mem _ member)
      have behind := (later.spaced _ (isSpacing_newLine depth)).marked ',' .comma rfl
      have whole := (spells item (by simp)).append behind (stops_cons _ ',' _ rfl)
      simpa using whole

theorem spells_bracketed (first last : Char) (starts ends : Token)
    (startKnown : punctuation.lookup first = some starts)
    (endKnown : punctuation.lookup last = some ends) (depth : Nat) (items : List α)
    (spells : ∀ inside ∈ items, Spells (text inside).toList (piece inside)) :
    Spells (bracketed first.toString last.toString depth (items.map text)).toList
      (starts :: [.comma].intercalate (items.map piece) ++ [ends]) := by
  have closing := spells_nil.marked last ends endKnown
  cases items with
  | nil =>
      have whole := closing.marked first starts startKnown
      simpa [bracketed] using whole
  | cons item items =>
      have inside := (spells_intercalate text piece (depth + 1) item items spells).spaced _
        (isSpacing_newLine (depth + 1))
      have outside := closing.spaced _ (isSpacing_newLine depth)
      have stops : Stops Char.isDigit ((newLine depth).toList ++ [last]) := by
        rw [toList_newLine]
        exact stops_cons _ '\n' _ rfl
      have whole := (inside.append outside stops).marked first starts startKnown
      simpa [bracketed] using whole

end Pieces

end Tokens

theorem Json.spells_renderAt (document : Json) :
    ∀ depth, Spells (document.renderAt depth).toList document.tokens := by
  induction document using Json.forall_of_inside with
  | text value => exact fun depth => spells_quoteJson value
  | number value => exact fun depth => spells_decimal value
  | list items inside =>
      intro depth
      rw [Json.renderAt, Json.renderItems_eq, Json.tokens, Json.itemTokens_eq]
      exact spells_bracketed _ Json.tokens '[' ']' .listStart .listEnd rfl rfl depth items
        fun item member => inside item member (depth + 1)
  | object entries inside =>
      intro depth
      rw [Json.renderAt, Json.renderEntries_eq, Json.tokens, Json.entryTokens_eq]
      exact spells_bracketed _ _ '\x7b' '\x7d' .objectStart .objectEnd rfl rfl depth entries
        fun entry member => spells_entry _ _ _ (inside entry member (depth + 1))

theorem Json.read?_render (document : Json) : Json.read? document.render = some document := by
  have tokens := document.spells_renderAt 0 [] (stops_nil _)
  have value := document.recovered [] []
  rw [List.append_nil] at value
  rw [List.append_nil] at tokens
  rw [Json.read?, Json.render, tokens, readTokens?_eq]
  simpa [readAfter?] using value

end BinaryRecord
