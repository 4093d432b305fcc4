import PipeShell.Args.Basic
import PipeShell.Shell.Basic

/-!
# Commands on directories

The working directory, and the listings of what a directory holds. Listings show directories first,
and then go by name.
-/

namespace PipeShell.Command

/-- Directories first, then by name. -/
def ordered (entries : List StoreEntry) : List StoreEntry :=
  entries.mergeSort fun a b =>
    if a.isDirectory = b.isDirectory then !Text.before b.name a.name else a.isDirectory

/-- The entries that stand directly in a directory. -/
def childrenOf (directory : Text) (entries : List StoreEntry) : List StoreEntry :=
  entries.filter fun e => (Path.parentAndName e.path).1 = directory

/-- The name of an entry as listings show it. -/
def label (e : StoreEntry) : Text :=
  if e.isDirectory then e.name ++ "/" else e.name

/-- A listing of one level, of names in a row or of paths with their kinds in lines. -/
def renderList (long : Bool) (entries : List StoreEntry) : Text :=
  if long then
    Text.join ['\n'] (entries.map fun e =>
      (if e.isDirectory then "d " else "- ") ++ Path.display e.path)
  else Text.join "  " (entries.map label)

/-- Refuses what is no directory. The root always is one. -/
def requireDirectory (target : Text) : Action ShellState Unit := do
  if target ≠ [] then
    if !(← Store.isDirectory target) then
      if ← Store.holds target then throw (.notADirectory target)
      else throw (.noSuchDirectory target)

/-- Shows the working directory. -/
def printWorkingDirectory : Command := do
  return .ok (← shell).pwd

/-- Goes to a directory, or to the root. -/
def goTo (cwd : Text) : Command := do
  enter cwd
  return .ok []

/-- Changes the working directory. -/
def changeDirectory (args : Args) : Command := do
  match args.text? .path with
  | none | some ['/'] => goTo []
  | some path =>
      let target ← resolve (some path)
      let missing ← if target = [] then pure false else pure (!(← Store.isDirectory target))
      if missing then return .fail ("Not a directory: " ++ Path.display target)
      else goTo target

/-- Lists one level of a directory, or shows a file. -/
def listDirectory (args : Args) : Command := do
  let target ← resolve (args.text? .path)
  let long := args.holds .long
  let isFile ←
    if target = [] then pure false
    else if ← Store.holds target then pure (!(← Store.isDirectory target))
    else pure false
  if isFile then return .ok (renderList long [⟨Path.name target, target, false⟩])
  requireDirectory target
  return .ok (renderList long (ordered (childrenOf target (← Store.list target))))

/-- The lines of a tree below a directory, each after `indent`; `fuel` bounds the depth. -/
def treeLines (entries : List StoreEntry) : Nat → Text → Text → List Text
  | 0, _, _ => []
  | fuel + 1, directory, indent =>
      let children := ordered (childrenOf directory entries)
      (children.zipIdx 1).flatMap fun (e, n) =>
        let last := n = children.length
        (indent ++ (if last then "└── " else "├── ") ++ label e)
          :: (if e.isDirectory then
                treeLines entries fuel e.path (indent ++ (if last then "    " else "│   "))
              else [])

/-- Shows all that a directory holds as a tree. -/
def tree (args : Args) : Command := do
  let target ← resolve (args.text? .path)
  requireDirectory target
  let entries ← Store.list target
  return .ok (Text.join ['\n']
    (Path.display target :: treeLines entries (entries.length + 1) target []))

end PipeShell.Command
