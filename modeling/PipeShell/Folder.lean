import PipeShell.Path

/-!
# Folders

What a directory holds: files and folders with names, in the order in which they were added. A
folder is a chain of entries, so that it needs no list of trees, and a path is the list of the names
that lead to an entry. All changes go through `alter`. Folders may be of any depth: the stack that a
walk through a deep one takes is left out.
-/

namespace PipeShell

/-- What a directory holds, with files of contents `α`. -/
inductive Folder (α : Type)
  | empty
  | file (name : Text) (content : α) (rest : Folder α)
  | folder (name : Text) (inside : Folder α) (rest : Folder α)
  deriving DecidableEq, Repr

/-- An entry of a directory, without its name. -/
inductive Node (α : Type)
  | file (content : α)
  | folder (inside : Folder α)
  deriving DecidableEq, Repr

/-- What stands at a path: a node, nothing from some path on the way on, or a file on the way. -/
inductive Found (α : Type)
  | node (n : Node α)
  | missing (path : List Text)
  | blocked (path : List Text)
  deriving DecidableEq, Repr

/-- The same as seen from one directory further up. -/
def Found.under {α : Type} (name : Text) : Found α → Found α
  | .node n => .node n
  | .missing path => .missing (name :: path)
  | .blocked path => .blocked (name :: path)

namespace Folder

variable {α : Type}

/-- The entry of a name. -/
def child? (name : Text) : Folder α → Option (Node α)
  | empty => none
  | file n content rest => if n = name then some (.file content) else child? name rest
  | folder n inside rest => if n = name then some (.folder inside) else child? name rest

/-- What stands at a path. -/
def find : List Text → Folder α → Found α
  | [], f => .node (.folder f)
  | name :: path, f =>
      match f.child? name with
      | none => .missing [name]
      | some (.file content) => if path = [] then .node (.file content) else .blocked [name]
      | some (.folder inside) => (find path inside).under name

/-- The node at a path, if there is one. -/
def node? (path : List Text) (f : Folder α) : Option (Node α) :=
  match f.find path with
  | .node n => some n
  | _ => none

/-- The node as an entry of this name before the others. -/
def add (name : Text) (n : Node α) (rest : Folder α) : Folder α :=
  match n with
  | .file content => file name content rest
  | .folder inside => folder name inside rest

/-- Changes, removes or appends the entry of a name. -/
def alterChild (name : Text) (change : Option (Node α) → Option (Node α)) : Folder α → Folder α
  | empty =>
      match change none with
      | none => empty
      | some n => add name n empty
  | file m content rest =>
      if m = name then
        match change (some (.file content)) with
        | none => rest
        | some n => add name n rest
      else file m content (alterChild name change rest)
  | folder m inside rest =>
      if m = name then
        match change (some (.folder inside)) with
        | none => rest
        | some n => add name n rest
      else folder m inside (alterChild name change rest)

/-- Changes, removes or appends the entry at a path below existing folders. -/
def alter : List Text → (Option (Node α) → Option (Node α)) → Folder α → Folder α
  | [], _, f => f
  | [name], change, f => f.alterChild name change
  | name :: next :: path, change, f =>
      f.alterChild name fun
        | some (.folder inside) => some (.folder (alter (next :: path) change inside))
        | other => other

/-- The folder with the missing folders of a path, unless a file is in the way. -/
def ensure : List Text → Folder α → Folder α
  | [], f => f
  | name :: path, f =>
      f.alterChild name fun
        | none => some (.folder (ensure path empty))
        | some (.folder inside) => some (.folder (ensure path inside))
        | some (.file content) => some (.file content)

/-- The folder with a file at a path below existing folders. -/
def write (path : List Text) (content : α) (f : Folder α) : Folder α :=
  f.alter path fun _ => some (.file content)

/-- The folder without the entry at a path. -/
def erase (path : List Text) (f : Folder α) : Folder α :=
  f.alter path fun _ => none

/-- The folder with nothing in the folder at a path. -/
def hollow (path : List Text) (f : Folder α) : Folder α :=
  if path = [] then empty else f.alter path fun _ => some (.folder empty)

/-- All entries with their paths below `above`; a directory has no content and stands before what it
holds. -/
def entriesUnder (above : List Text) : Folder α → List (List Text × Option α)
  | empty => []
  | file name content rest => (above ++ [name], some content) :: entriesUnder above rest
  | folder name inside rest =>
      (above ++ [name], none)
        :: (entriesUnder (above ++ [name]) inside ++ entriesUnder above rest)

/-- All entries with their paths; a directory has no content and stands before what it holds. -/
def entries (f : Folder α) : List (List Text × Option α) :=
  entriesUnder [] f

/-- The sum of a measure over the contents of all files. -/
def sum (measure : α → Nat) : Folder α → Nat
  | empty => 0
  | file _ content rest => measure content + sum measure rest
  | folder _ inside rest => sum measure inside + sum measure rest

end Folder

/-- The path `p` comes before `q`, segment by segment in code point order. -/
def Path.before : List Text → List Text → Bool
  | _, [] => false
  | [], _ :: _ => true
  | a :: p, b :: q => Text.before a b || (a = b && Path.before p q)

/-- All entries with their paths, sorted by path. -/
def Folder.sortedEntries {α : Type} (f : Folder α) : List (List Text × Option α) :=
  f.entries.mergeSort fun a b => !Path.before b.1 a.1

end PipeShell
