import PipeShell.Args.Basic
import PipeShell.Pattern.Search
import PipeShell.Shell.Basic

/-!
# Searching lines

Shows the lines that a pattern matches, in any letter case. Lines of a file get their numbers, piped
lines do not.
-/

namespace PipeShell.Command

/-- The lines that a test selects, with their numbers on request. -/
def selectLines (selects : Text → Bool) (numbered : Bool) (content : Text) : List Text :=
  ((Text.lines content).zipIdx 1).filterMap fun (line, n) =>
    if selects line then some (if numbered then Text.ofNat n ++ ":" ++ line else line) else none

/-- Shows the lines that a pattern matches, or those that it does not. -/
def search (args : Args) (piped : Option Text) : Command := do
  match args.text? .pattern with
  | none => return usage "grep <pattern> <path>"
  | some source =>
      match Pattern.read source with
      | .error (.failure f) => throw f
      | .error (.malformed wording position) =>
          return .fail ("Invalid pattern '" ++ source ++ "': "
            ++ Pattern.faultMessage source wording position)
      | .ok (pattern, modes) =>
          let selects := fun line => Pattern.occursIn modes pattern line != args.holds .invertMatch
          match piped, args.text? .path with
          | some content, _ =>
              return .ok (Text.joinLines (selectLines selects false content))
          | none, some path =>
              let content ← Store.read (← resolve (some path))
              return .ok (Text.joinLines (selectLines selects true content))
          | none, none => return usage "grep <pattern> <path>"

end PipeShell.Command
