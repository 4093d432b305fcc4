import PipeShell.Proofs.Store.Action
import PipeShell.Shell.Files
import PipeShell.Shell.TextCommands

/-!
# Commands on files

What a command on a path keeps, and what it answers, follow from what its calls of the store keep. Here
the branches of each of these commands are taken once, whatever is kept.
-/

namespace PipeShell.Command

open PipeShell.Action

variable {I : ShellState → Prop} {Q : Text → Prop} {P : Result → Prop} {E : Failure → Prop}
  {args : Args} {form : Text}

/-- The action keeps `I`, and fails as `E` says if it does. -/
abbrev Safe {α : Type} (I : ShellState → Prop) (E : Failure → Prop) (x : Action ShellState α) : Prop :=
  x.Yields I (fun _ => True) E

variable (husage : ∀ form, P (usage form))
  (hresolve : ∀ path, args.text? .path = some path → (resolve (some path)).Yields I Q E)

include husage hresolve

theorem yields_withPath {run : Text → Command}
    (hrun : ∀ target, Q target → (run target).Yields I P E) :
    (withPath args form run).Yields I P E := by
  rw [withPath]
  cases hpath : args.text? .path with
  | none => exact yields_pure (husage form)
  | some path => exact (hresolve path hpath).bind hrun

variable (hholds : ∀ target, Q target → Safe I E (liftM (Store.holds target)))
  (hdirectory : ∀ target, Q target → Safe I E (liftM (Store.isDirectory target)))

include hholds hdirectory in
theorem yields_createEmpty
    (hcreate : ∀ target, Q target → Safe I E (liftM (Store.createFile target [])))
    (hfound : ∀ target, Q target → P (.ok ("File exists: " ++ Path.display target)))
    (hdone : ∀ target, Q target → P (.ok ("Created file: " ++ Path.display target))) :
    (createEmpty args).Yields I P E := by
  refine yields_withPath husage hresolve fun target ht => ?_
  have hrest (isFile : Bool) : Action.Yields (σ := ShellState) (do
      if isFile then return .ok ("File exists: " ++ Path.display target)
      else
        let _ ← Store.createFile target []
        return .ok ("Created file: " ++ Path.display target)) I P E :=
    yields_ite (fun _ => yields_pure (hfound target ht)) fun _ =>
      (hcreate target ht).bind fun _ _ => yields_pure (hdone target ht)
  refine (hholds target ht).bind fun held _ => ?_
  refine yields_ite (fun _ => ?_) fun _ => hrest false
  exact (hdirectory target ht).bind fun d _ => hrest !d

include hdirectory in
/-- Only a directory is deleted as one, and only when the arguments ask for it. -/
theorem yields_remove
    (hfile : ∀ target, Q target → Safe I E (liftM (Store.deleteFile target)))
    (hbelow : args.holds .recursive → ∀ target, Q target →
      Safe I E (liftM (Store.deleteDirectory target)))
    (hkept : ∀ target, Q target →
      P (.fail ("Is a directory: " ++ Path.display target ++ " (use rmdir or rm -r)")))
    (hdone : ∀ target, Q target → P (.ok ("Removed: " ++ Path.display target))) :
    (remove args).Yields I P E := by
  refine yields_withPath husage hresolve fun target ht => ?_
  refine (hdirectory target ht).bind fun isDirectory _ => ?_
  refine yields_ite (fun _ => ?_) fun _ =>
    (hfile target ht).bind fun _ _ => yields_pure (hdone target ht)
  refine yields_ite (fun _ => yields_pure (hkept target ht)) fun hrecursive => ?_
  exact (hbelow (by simpa using hrecursive) target ht).bind fun _ _ =>
    yields_pure (hdone target ht)

include hholds in
theorem yields_write (piped : Option Text)
    (hread : ∀ target, Q target → Safe I E (liftM (Store.read target)))
    (hwrite : ∀ target content, Q target → Safe I E (liftM (Store.write target content)))
    (hcreate : ∀ target content, Q target → Safe I E (liftM (Store.createFile target content)))
    (hdone : ∀ target, Q target → P (.ok ("Written to: /" ++ target))) :
    (write args piped).Yields I P E := by
  rw [write]
  cases hpath : args.text? .path with
  | none => exact yields_pure (husage _)
  | some path =>
      refine (hresolve path hpath).bind fun target ht => ?_
      have hanswer : Action.Yields (pure (.ok ("Written to: /" ++ target))) I P E :=
        yields_pure (hdone target ht)
      refine (hholds target ht).bind fun held _ => ?_
      refine yields_ite (fun _ => ?_) fun _ => (hcreate target _ ht).bind fun _ _ => hanswer
      have hput (content : Text) : Action.Yields (σ := ShellState) (do
          Store.write target content
          return .ok ("Written to: /" ++ target)) I P E :=
        (hwrite target content ht).bind fun _ _ => hanswer
      refine yields_ite (fun _ => ?_) fun _ => hput _
      exact (hread target ht).bind fun _ _ => hput _

end PipeShell.Command
