import BinaryRecord.Storage.Entry

namespace BinaryRecord

inductive Tree
  | file (bytes : List UInt8)
  | folder (entries : List (FileName × Tree))

def Tree.empty : Tree := .folder []

def setEntry (name : FileName) (tree : Tree) :
    List (FileName × Tree) → List (FileName × Tree)
  | [] => [(name, tree)]
  | entry :: entries =>
      if entry.1 = name then (name, tree) :: entries else entry :: setEntry name tree entries

def Tree.find : List FileName → Tree → Except StorageFault Tree
  | [], tree => .ok tree
  | _ :: _, .file _ => .error .notFolder
  | name :: names, .folder entries =>
      match entries.lookup name with
      | some tree => tree.find names
      | none => .error .missing

def Tree.content : Tree → Content
  | .file bytes => .file (fileText bytes)
  | .folder _ => .folder

def entryOf (entry : FileName × Tree) : Entry := ⟨entry.1, entry.2.content⟩

def Tree.entries : Tree → Listing
  | .file _ => .error .notFolder
  | .folder entries => .ok (entries.map entryOf)

def longestName : Nat := 255

def longestPath : Nat := 4095

def Path.route (path : Path) : Except StorageFault (List FileName) :=
  if path.isEmpty then .error .missing
  else if longestPath < path.length then .error .tooLong
  else .ok path.parts

/-- Goes on from a place, which has to be a folder even for a part that stays there. The top of the
tree is above itself. -/
def Tree.advance (top : Tree) (place : List FileName) (part : FileName) :
    Except StorageFault (List FileName) := do
  match ← top.find place with
  | .file _ => .error .notFolder
  | .folder entries =>
      if part = [] ∨ part = [dot] then .ok place
      else if part = upward then .ok place.dropLast
      else if longestName < part.length then .error .tooLong
      else if (entries.lookup part).isSome then .ok (place ++ [part])
      else .error .missing

/-- Where the parts of a path lead, one after the other. All that they pass through has to be there,
also what a later part leaves again. -/
def Tree.walk (top : Tree) (parts : List FileName) : Except StorageFault (List FileName) :=
  parts.foldlM top.advance []

def Tree.list (tree : Tree) (path : Path) : Listing := do
  (← tree.find (← tree.walk (← path.route))).entries

def Tree.writeAt (bytes : List UInt8) : List FileName → Tree → Except StorageFault Tree
  | [], .file _ => .ok (.file bytes)
  | [], .folder _ => .error .isFolder
  | _ :: _, .file _ => .error .notFolder
  | name :: names, .folder entries =>
      match entries.lookup name with
      | some tree => return .folder (setEntry name (← tree.writeAt bytes names) entries)
      | none =>
          if names.isEmpty then .ok (.folder (setEntry name (.file bytes) entries))
          else .error .missing

/-- Where a path leads for a file to be written: to a name, in a folder that is there. A path that
ends in a slash or in dots is one of a folder. -/
def Tree.target (tree : Tree) (path : Path) : Except StorageFault (List FileName) := do
  match (← path.route).reverse.dropWhile List.isEmpty with
  | [] => .error .isFolder
  | name :: before =>
      let place ← tree.walk ([dot] :: before).reverse
      if path.getLast? = some slash ∨ name = [dot] ∨ name = upward then .error .isFolder
      else if longestName < name.length then .error .tooLong
      else .ok (place ++ [name])

def Tree.write (tree : Tree) (path : Path) (text : String) : Except StorageFault Tree := do
  tree.writeAt (encodeText text) (← tree.target path)

def Tree.place (leaf : Tree) : List FileName → Tree → Tree
  | [], _ => leaf
  | name :: names, .file _ => .folder [(name, leaf.place names .empty)]
  | name :: names, .folder entries =>
      .folder (setEntry name (leaf.place names ((entries.lookup name).getD .empty)) entries)

end BinaryRecord
