import PipeShell.Failure
import PipeShell.Path
import PipeShell.Store.Entry
import PipeShell.Text.Utf8

/-!
# Nodes by label

A table of nodes that are made first and put into directories later. A node remembers the directory
it was put into, even after it is taken out, and its path goes by that.
-/

namespace PipeShell

/-- A node of a table: its name, the label of the directory it was put into, and either a content or
the children, as names with labels in order of entry. -/
structure TableNode where
  name : Text
  parent : Option Text := none
  content : Option Text := none
  children : List (Text × Text) := []
  deriving DecidableEq, Repr

/-- Nodes by label. -/
abbrev NodeTable := List (Text × TableNode)

namespace NodeTable

/-- The table of a nameless root directory. -/
def initial : NodeTable :=
  [("root", { name := [] })]

/-- The node of a label. -/
def node (t : NodeTable) (label : Text) : TableNode :=
  (t.lookup label).getD { name := [] }

/-- The table with a node under a label. -/
def put (t : NodeTable) (label : Text) (n : TableNode) : NodeTable :=
  (label, n) :: t.filter (·.1 ≠ label)

/-- The names from a node up to the last directory above it, nearest first. -/
def namesUp (t : NodeTable) : Nat → Text → List Text
  | 0, _ => []
  | fuel + 1, label =>
      let n := t.node label
      match n.parent with
      | none => []
      | some parent => n.name :: namesUp t fuel parent

/-- The path of a node. -/
def path (t : NodeTable) (label : Text) : Text :=
  Path.ofSegments (t.namesUp (t.length + 1) label).reverse

/-- Puts a node into a directory. -/
def addChild (dir child : Text) : Action NodeTable Unit := do
  let t ← get
  let d := t.node dir
  let c := t.node child
  if (d.children.lookup c.name).isSome then throw (.childExists c.name (t.path dir))
  let t := t.put child { c with parent := some dir }
  let d := t.node dir
  set (t.put dir { d with children := d.children ++ [(c.name, child)] })

/-- Takes the child of a name out of a directory. -/
def removeChild (dir name : Text) : Action NodeTable Unit := do
  let t ← get
  let d := t.node dir
  if (d.children.lookup name).isNone then throw (.noSuchChild name (t.path dir))
  set (t.put dir { d with children := d.children.filter (·.1 ≠ name) })

/-- The label of the child of a name. -/
def child (t : NodeTable) (dir name : Text) : Except Failure Text :=
  match (t.node dir).children.lookup name with
  | some label => .ok label
  | none => .error (.noSuchEntry (Path.join [t.path dir, name]))

/-- The labels of all nodes below a directory, each before what it holds. -/
def below (t : NodeTable) : Nat → Text → List Text
  | 0, _ => []
  | fuel + 1, label =>
      (t.node label).children.flatMap fun (_, child) => child :: below t fuel child

/-- The labels of all nodes below a directory, each before what it holds. -/
def descendants (t : NodeTable) (dir : Text) : List Text :=
  t.below (t.length + 1) dir

/-- The bytes of a file. -/
def size (t : NodeTable) (label : Text) : Nat :=
  Text.byteLength ((t.node label).content.getD [])

end NodeTable

end PipeShell
