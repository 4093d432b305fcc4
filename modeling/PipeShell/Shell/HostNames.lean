import PipeShell.Pipeline.Reader
import PipeShell.Shell.Basic

/-!
# Names on the host

Which addresses on the host a line may read or write. Outside of its store a shell touches nothing
else.
-/

namespace PipeShell.Shell

/-- The addresses that a stage may touch. -/
def stageAddresses (s : Shell) (p : Picker) (stage : Stage) : List Address :=
  match stage.verb with
  | .importFiles =>
      ((stage.args.texts? .paths).getD []).filterMap fun name => (p.source name).toOption
  | .exportFile =>
      match stage.args.text? .path with
      | some path => [p.base.append (.ofText (Path.name (s.resolve (some path))))]
      | none => []
  | _ => []

/-- The addresses that a line may touch: the directory of the picker and those of the stages. -/
def hostAddresses (s : Shell) (line : Text) : List Address :=
  match s.picker, Pipeline.read line with
  | some p, .ok pipeline => p.base :: pipeline.stages.flatMap (s.stageAddresses p)
  | some p, .error _ => [p.base]
  | none, _ => []

end PipeShell.Shell
