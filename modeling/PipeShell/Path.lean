import PipeShell.Text.Basic

/-!
# Store paths

A store path is a text of segments with slashes between them and none in front; the empty text is
the root. A shell resolves what the user writes against its working directory: empty segments and
`.` are skipped and `..` steps back.
-/

namespace PipeShell.Path

/-- The segments of a path, without empty ones and `.`. -/
def segments (path : Text) : List Text :=
  (Text.pieces (· == '/') path).filter fun s => s ≠ [] && s ≠ ['.']

/-- The path of the segments. -/
def ofSegments (segments : List Text) : Text :=
  Text.join ['/'] segments

/-- The path that goes through all the segments of the given paths. -/
def join (paths : List Text) : Text :=
  ofSegments (paths.flatMap segments)

/-- The path without its last segment, and that segment; both are empty for the root. -/
def parentAndName (path : Text) : Text × Text :=
  let parts := segments path
  (ofSegments parts.dropLast, parts.getLastD [])

/-- The last segment of a path. -/
def name (path : Text) : Text :=
  (parentAndName path).2

/-- One more segment of a walk from the root, whose last segment comes first; `..` steps back and
stays at the root. -/
def step (walked : List Text) (segment : Text) : List Text :=
  if segment = ['.', '.'] then walked.tail else segment :: walked

/-- The segments that a walk along the given ones ends with. -/
def walk (segments : List Text) : List Text :=
  (segments.foldl step []).reverse

/-- A path that starts with exactly two slashes has a root of its own, which counts as a segment. -/
def ownRoot : Text → List Text
  | ['/', '/'] => [['/', '/']]
  | '/' :: '/' :: c :: _ => if c = '/' then [] else [['/', '/']]
  | _ => []

/-- The path starts at a root. -/
def isAbsolute (path : Text) : Bool :=
  path.head? = some '/'

/-- The segments of a path with the root of its own, if it has one. -/
def rooted (path : Text) : List Text :=
  ownRoot path ++ segments path

/-- The store path that the user's `path` means in the working directory `cwd`. -/
def resolve (cwd : Text) (path : Option Text) : Text :=
  let path := path.getD []
  ofSegments (walk (if isAbsolute path then rooted path else rooted cwd ++ segments path))

/-- A store path as the user sees it. -/
def display (path : Text) : Text :=
  '/' :: path

end PipeShell.Path
