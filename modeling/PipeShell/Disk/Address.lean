import PipeShell.Failure
import PipeShell.Path

/-!
# Addresses on the host

An address names an entry of the host's file system. It starts at a root or at the working
directory. Empty segments and `.` do not count, but `..` is kept, because it steps back only from a
directory that exists.
-/

namespace PipeShell

/-- An address: its root, empty for the working directory, and its segments. -/
structure Address where
  root : Text := []
  parts : List Text := []
  deriving DecidableEq, Repr

/-- The home directories of users, where the current user has the empty name. -/
abbrev Homes := List (Text × Text)

/-- The homes in a table of users with a line each, whose fields are divided by colons: the name
stands in the first one and the home directory in the sixth. -/
def Homes.ofTable (table : Text) : Homes :=
  (Text.pieces (· == '\n') table).filterMap fun line =>
    match Text.pieces (· == ':') line with
    | name :: _ :: _ :: _ :: _ :: home :: _ => if name = [] then none else some (name, home)
    | _ => none

namespace Address

/-- The address that a text writes. Exactly two slashes are a root of their own. -/
def ofText (t : Text) : Address where
  root := match Path.ownRoot t with
    | [] => if Path.isAbsolute t then ['/'] else []
    | root :: _ => root
  parts := Path.segments t

/-- The text of an address. -/
def toText (a : Address) : Text :=
  if a.root = [] && a.parts = [] then ['.'] else a.root ++ Path.ofSegments a.parts

/-- The address at the segments below the root. -/
def ofSegments (segments : List Text) : Address :=
  ⟨['/'], segments⟩

/-- The second address as seen from the first. -/
def append (a b : Address) : Address :=
  if b.root = [] then { a with parts := a.parts ++ b.parts } else b

/-- The last segment. -/
def name (a : Address) : Text :=
  a.parts.getLastD []

/-- The address with `~` or `~user` in front replaced by a home directory. -/
def expandHome (homes : Homes) (a : Address) : Except Failure Address :=
  match a.root, a.parts with
  | [], ('~' :: user) :: rest =>
      match homes.lookup user with
      | some home =>
          let home := ofText home
          .ok { home with parts := home.parts ++ rest }
      | none => .error .noHomeDirectory
  | _, _ => .ok a

/-- The segments from the root of the file system, seen from a working directory. -/
def segmentsFrom (workingDirectory : List Text) (a : Address) : List Text :=
  if a.root = [] then workingDirectory ++ a.parts else a.parts

/-- The address holds NUL. -/
def hasNull (a : Address) : Bool :=
  a.parts.any (·.contains '\x00')

end Address

end PipeShell
