import BinaryRecord.Record

namespace BinaryRecord

/-- Lowers capitals. A run of capitals begins a new word, so an underscore goes before it. -/
def splitWords (afterCapital : Bool) : List Char → List Char
  | [] => []
  | c :: rest =>
      if c.isUpper then
        if afterCapital then c.toLower :: splitWords true rest
        else '_' :: c.toLower :: splitWords true rest
      else c :: splitWords false rest

def squeeze : List Char → List Char
  | [] => []
  | [c] => [c]
  | c :: d :: rest =>
      if c = '_' ∧ d = '_' then squeeze (d :: rest) else c :: squeeze (d :: rest)

/-- The first character is never part of a run of capitals, so `AB` has two words. -/
def snakeChars : List Char → List Char
  | [] => []
  | c :: rest => squeeze (c.toLower :: splitWords false rest)

def snakeCase (name : String) : String := String.ofList (snakeChars name.toList)

structure IsSnake (s : List Char) : Prop where
  low : ∀ c ∈ s, c.isUpper = false
  single : ∀ u v, s ≠ u ++ '_' :: '_' :: v

def startsWithDigit (s : List Char) : Bool := s.head?.any Char.isDigit

def identifier (name : String) : String :=
  if startsWithDigit name.toList then "field" ++ name
  else if name = "type" then "ty"
  else name

def fieldIdentifier (name : String) : String := identifier (snakeCase name)

def numbered (name : String) (number : Nat) : String := name ++ "_" ++ decimal number

/-- `seen` holds the snake case of the names before, as they were given and not as they became. -/
def distinctFrom (seen : List String) (renamed : Nat) : List String → List String
  | [] => []
  | name :: names =>
      if snakeCase name ∈ seen then
        numbered name renamed :: distinctFrom (snakeCase name :: seen) (renamed + 1) names
      else name :: distinctFrom (snakeCase name :: seen) renamed names

def distinctNames (names : List String) : List String := distinctFrom [] 0 names

class HasName (α : Type) where
  nameOf : α → String
  withName : α → String → α
  nameOf_withName : ∀ item name, nameOf (withName item name) = name
  withName_nameOf : ∀ item, withName item (nameOf item) = item
  withName_withName : ∀ item first second,
    withName (withName item first) second = withName item second

export HasName (nameOf withName)

instance : HasName Field where
  nameOf := Field.name
  withName field name := { field with name }
  nameOf_withName _ _ := rfl
  withName_nameOf _ := rfl
  withName_withName _ _ _ := rfl

instance : HasName Member where
  nameOf := Member.name
  withName
    | .plain field, name => .plain { field with name }
    | .packed word, name => .packed { word with name }
  nameOf_withName item _ := by cases item <;> rfl
  withName_nameOf item := by cases item <;> rfl
  withName_withName item _ _ := by cases item <;> rfl

variable {α : Type} [HasName α]

def distinct (items : List α) : List α :=
  List.zipWith withName items (distinctNames (items.map nameOf))

def Member.distinctFlags : Member → Member
  | .plain field => .plain field
  | .packed word => .packed { word with flags := distinct word.flags }

def DistinctNames (items : List α) : Prop :=
  (items.map fun item => snakeCase (nameOf item)).Nodup

instance (items : List α) : Decidable (DistinctNames items) :=
  inferInstanceAs (Decidable (items.map fun item => snakeCase (nameOf item)).Nodup)

theorem distinctFrom_length (names seen : List String) (renamed : Nat) :
    (distinctFrom seen renamed names).length = names.length := by
  induction names generalizing seen renamed with
  | nil => rfl
  | cons name names ih => simp only [distinctFrom]; split <;> simp [ih]

theorem distinct_length (items : List α) : (distinct items).length = items.length := by
  simp [distinct, distinctNames, distinctFrom_length]

end BinaryRecord
