import BinaryRecord.Text.Character

namespace BinaryRecord

/-- Objects keep the order of their entries. -/
inductive Json
  | text (value : String)
  | number (value : Nat)
  | list (items : List Json)
  | object (entries : List (String × Json))

def hexPair (n : Nat) : List Char := [Nat.digitChar (n / 16), Nat.digitChar (n % 16)]

def jsonChar (c : Char) : List Char :=
  if c = '"' then ['\\', '"']
  else if c = '\\' then ['\\', '\\']
  else if c = '\x08' then ['\\', 'b']
  else if c = '\t' then ['\\', 't']
  else if c = '\n' then ['\\', 'n']
  else if c = '\x0c' then ['\\', 'f']
  else if c = '\r' then ['\\', 'r']
  else if c.toNat < 0x20 then ['\\', 'u', '0', '0'] ++ hexPair c.toNat
  else [c]

def quoteJson (text : String) : String :=
  String.ofList ('"' :: text.toList.flatMap jsonChar ++ ['"'])

def newLine (depth : Nat) : String := "\n" ++ String.ofList (List.replicate (2 * depth) ' ')

def bracketed (first last : String) (depth : Nat) (items : List String) : String :=
  if items.isEmpty then first ++ last
  else
    first ++ newLine (depth + 1) ++ String.intercalate ("," ++ newLine (depth + 1)) items ++
      newLine depth ++ last

mutual

def Json.renderAt (depth : Nat) : Json → String
  | .text value => quoteJson value
  | .number value => decimal value
  | .list items => bracketed "[" "]" depth (Json.renderItems (depth + 1) items)
  | .object entries => bracketed "\x7b" "\x7d" depth (Json.renderEntries (depth + 1) entries)

def Json.renderItems (depth : Nat) : List Json → List String
  | [] => []
  | item :: items => item.renderAt depth :: Json.renderItems depth items

def Json.renderEntries (depth : Nat) : List (String × Json) → List String
  | [] => []
  | (key, value) :: entries =>
      (quoteJson key ++ ": " ++ value.renderAt depth) :: Json.renderEntries depth entries

end

def Json.render (document : Json) : String := document.renderAt 0

end BinaryRecord
