import PipeShell.Proofs.Shell.Allowed
import PipeShell.Proofs.Shell.Piped

/-!
# Pipelines one after another

A pipeline runs like its first stages and, if these succeed, the other ones as a pipeline of their
own, as long as the first of those does not read what is piped into it. Besides the piped text,
stages only share the working directory and the world.
-/

namespace PipeShell

/-- The state without its records. -/
def ShellState.unlogged (s : ShellState) : ShellState :=
  { s with world := { s.world with log := [] } }

/-! ## What runs keep of a shell -/

namespace Pairing

/-- A shell that runs twice, from equal states. Only its working directory changes. -/
def moving (a : Shell) : Pairing :=
  { twice (fun _ => True) a.allowed a.picker with
    shells := fun b c => b = c ∧ ∃ cwd, b = { a with cwd } }

variable {a : Shell}

theorem changing_moving : (moving a).Changing :=
  have hc : (twice (fun _ => True) a.allowed a.picker).Changing := changing_twice
  { hc with
    view := by
      rintro b _ ⟨rfl, -⟩
      rfl
    picker := by
      rintro _ _ ⟨rfl, cwd, rfl⟩
      rfl
    cwd := fun _ => within_any
    enter := by
      rintro _ _ cwd ⟨rfl, former, rfl⟩ -
      exact ⟨rfl, cwd, rfl⟩
    path_resolve := fun _ _ => trivial
    path_picked := fun _ _ => trivial
    list := fun h => (hc.list h).mono fun _ _ hv => ⟨hv.length, hv.children, hv.shown⟩
    pick := by
      rintro v _ picker names - ⟨rfl, -⟩ - -
      exact Tie.sameAttempts_self fun _ _ _ _ => ⟨trivial, within_any⟩ }

theorem steady_moving : (moving a).Steady :=
  { (steady_twice fun _ _ _ _ => trivial : (twice (fun _ => True) a.allowed a.picker).Steady) with
    view := And.left }

theorem admits_moving (stage : Stage) : (moving a).Admits stage :=
  have hstage : (twice (fun _ => True) a.allowed a.picker).Admits stage := admits_twice stage
  ⟨hstage.values, fun _ _ _ _ => trivial⟩

theorem handles_moving (stage : Stage) :
    (moving a).Handles Command.ofVerb Command.ofVerb stage := by
  intro _ _ _ piped _
  have hinfo :
      (twice (fun _ => True) a.allowed a.picker).world.Alike Store.storageInfo fun _ => True :=
    alike_twice (fun _ => trivial) fun _ _ => trivial
  exact answers_ofVerb changing_moving (admits_moving _) (fun _ _ => within_any) fun _ => hinfo

end Pairing

namespace Shell

/-- Stages change nothing of a shell but its working directory. -/
theorem shell_runStages (index : Nat) (before : Option Text) (last : Result) (stages : List Stage)
    (s : ShellState) :
    ∃ cwd, (runStages index before last stages s).2.shell = { s.shell with cwd } := by
  have hanswered : (Pairing.moving s.shell).StageAnswered (runStages index before last stages s)
      (runStages index before last stages s) :=
    Pairing.answered_runStages Pairing.steady_moving index Pairing.within_any
      ⟨⟨rfl, s.shell.cwd, rfl⟩, rfl, trivial⟩ (fun _ _ => Pairing.within_any)
      fun stage _ => Pairing.handles_moving stage
  generalize runStages index before last stages s = out at hanswered ⊢
  cases hanswered with
  | gave _ _ hs => exact hs.1.2
  | failed _ _ _ hs => exact hs.1.2
  | excused hf => exact hf.elim

end Shell

/-! ## Stages after stages -/

namespace Handlers

variable {handlers : Handlers} {stage : Stage} {s : ShellState}

/-- Further stages run after those before them have succeeded, on what the last of these put out. -/
theorem runStages_append_piped (front : List Stage) (index : Nat) (before : Option Text)
    {last : Result} (hlast : last.error = none) (s : ShellState) (back : List Stage) :
    handlers.runStages index before last (front ++ back) s
      = if (handlers.runStages index before last front s).1.succeeded then
          handlers.runStages (index + front.length)
            (if front = [] then before
              else some (handlers.runStages index before last front s).1.output)
            (handlers.runStages index before last front s).1 back
            (handlers.runStages index before last front s).2
        else handlers.runStages index before last front s := by
  induction front generalizing index before last s with
  | nil =>
      have hok : last.succeeded = true := by simp [Result.succeeded, hlast]
      exact (if_pos hok).symm
  | cons stage front ih =>
      generalize hrun : handlers.runStage stage before s = out
      obtain ⟨r, t⟩ := out
      cases he : r.error with
      | none =>
          have hpiped : (if front = [] then some r.output
              else some (handlers.runStages (index + 1) (some r.output) r front t).1.output)
              = some (handlers.runStages (index + 1) (some r.output) r front t).1.output := by
            split
            · rename_i hnil
              rw [hnil]
              rfl
            · rfl
          rw [List.cons_append, runStages_passed hrun he, runStages_passed hrun he, ih _ _ he, hpiped,
            if_neg (List.cons_ne_nil _ _), List.length_cons, Nat.add_right_comm, Nat.add_assoc]
      | some error =>
          have hfailed : ¬r.succeeded = true := by simp [Result.succeeded, he]
          rw [List.cons_append, runStages_failed hrun he, runStages_failed hrun he, if_neg hfailed]

/-- Further stages run after those before them have succeeded, on some piped text. -/
theorem runStages_append (front : List Stage) (index : Nat) (before : Option Text) {last : Result}
    (hlast : last.error = none) (s : ShellState) :
    ∃ piped, ∀ back, handlers.runStages index before last (front ++ back) s
      = if (handlers.runStages index before last front s).1.succeeded then
          handlers.runStages (index + front.length) piped
            (handlers.runStages index before last front s).1 back
            (handlers.runStages index before last front s).2
        else handlers.runStages index before last front s :=
  ⟨_, runStages_append_piped front index before hlast s⟩

/-- The number of the first stage only shows in the records. -/
theorem runStages_index (stages : List Stage) (index index' : Nat) (before : Option Text)
    (last : Result) (s : ShellState) :
    (handlers.runStages index before last stages s).1
        = (handlers.runStages index' before last stages s).1
      ∧ (handlers.runStages index before last stages s).2.unlogged
        = (handlers.runStages index' before last stages s).2.unlogged := by
  induction stages generalizing index index' before last s with
  | nil => exact ⟨rfl, rfl⟩
  | cons stage rest ih =>
      generalize hrun : handlers.runStage stage before s = out
      obtain ⟨r, t⟩ := out
      cases he : r.error with
      | none =>
          rw [runStages_passed hrun he, runStages_passed hrun he]
          exact ih _ _ _ _ _
      | some error =>
          rw [runStages_failed hrun he, runStages_failed hrun he]
          exact ⟨rfl, rfl⟩

/-- A stage that does not read what is piped into it, or is not known, runs as the first one. -/
theorem runStage_unpiped (h : stage.verb ∈ s.shell.commands → stage.verb.isPipeAware = false)
    (piped : Option Text) : handlers.runStage stage piped s = handlers.runStage stage none s := by
  by_cases hknown : stage.verb ∈ s.shell.commands
  · simp only [runStage, h hknown]
    rfl
  · obtain ⟨_, hpiped⟩ := runStage_eq stage piped
    obtain ⟨_, hnone⟩ := runStage_eq stage none
    have hunknown : (!s.shell.commands.contains stage.verb) = true := by simpa using hknown
    rw [hpiped, hnone, if_pos hunknown, if_pos hunknown]

/-- Stages behind others run as on their own, if the first of them runs as the first one. -/
theorem runStages_unpiped (h : stage.verb ∈ s.shell.commands → stage.verb.isPipeAware = false)
    (index : Nat) (piped : Option Text) (last : Result) (rest : List Stage) :
    (handlers.runStages index piped last (stage :: rest) s).1
        = (handlers.runStages 0 none (.ok []) (stage :: rest) s).1
      ∧ (handlers.runStages index piped last (stage :: rest) s).2.unlogged
        = (handlers.runStages 0 none (.ok []) (stage :: rest) s).2.unlogged := by
  have hpiped : handlers.runStage stage piped s = handlers.runStage stage none s :=
    runStage_unpiped h piped
  generalize hrun : handlers.runStage stage none s = out at hpiped
  obtain ⟨r, t⟩ := out
  cases he : r.error with
  | none =>
      rw [runStages_passed hpiped he, runStages_passed hrun he]
      exact runStages_index _ _ _ _ _ _
  | some error =>
      rw [runStages_failed hpiped he, runStages_failed hrun he]
      exact ⟨rfl, rfl⟩

end Handlers

/-! ## Pipelines after pipelines -/

namespace Shell

/-- Runs a pipeline and, if it succeeds, another one. -/
def executeThen (p q : Pipeline) : Run := do
  let r ← execute p
  if r.succeeded then execute q else return r

theorem executeThen_eq (p q : Pipeline) (s : ShellState) :
    executeThen p q s
      = if (execute p s).1.succeeded then execute q (execute p s).2 else execute p s := by
  simp only [executeThen, bind, StateT.bind]
  generalize execute p s = out
  obtain ⟨r, t⟩ := out
  by_cases hr : r.succeeded = true
  · simp [hr]
  · simp only [hr]
    rfl

/-- A pipeline runs like its first stages and, if they succeed, the other ones as a pipeline of
their own, unless the first of those reads what is piped into it. If the first stages fail, the
other ones do not matter. -/
theorem execute_append (front : List Stage) (s : ShellState) :
    (∀ stage rest, (stage.verb ∈ s.shell.commands → stage.verb.isPipeAware = false) →
        (execute (pipe (front ++ stage :: rest)) s).1
            = (executeThen (pipe front) (pipe (stage :: rest)) s).1
          ∧ (execute (pipe (front ++ stage :: rest)) s).2.unlogged
            = (executeThen (pipe front) (pipe (stage :: rest)) s).2.unlogged)
      ∧ ((execute (pipe front) s).1.succeeded = false →
        ∀ back, execute (pipe (front ++ back)) s = execute (pipe front) s) := by
  have hok : (Result.ok []).error = none := rfl
  obtain ⟨piped, happend⟩ := Handlers.runStages_append front 0 none hok s
  refine ⟨fun stage rest hstage => ?_, fun hfailed back => ?_⟩
  · rw [executeThen_eq, execute_pipe, execute_pipe, happend]
    split
    · -- The stages before leave the table of commands as it is.
      obtain ⟨cwd, hshell⟩ := shell_runStages 0 none (.ok []) front s
      rw [execute_pipe]
      refine Handlers.runStages_unpiped ?_ _ _ _ _
      rwa [hshell]
    · exact ⟨rfl, rfl⟩
  · rw [execute_pipe] at hfailed ⊢
    rw [happend, if_neg (by simp [hfailed]), execute_pipe]

/-- A shell on an empty store in memory. -/
def fresh : ShellState where
  shell := {}
  world := { backing := .memory ⟨Folder.empty, 100⟩ }

/-- The stage that writes the file `a`. -/
def writing : Stage :=
  ⟨.write, [(.path, .text "a"), (.content, .text "x")]⟩

/-- The stage that reads a file. -/
def reading (path : Text) : Stage :=
  ⟨.read, [(.path, .text path)]⟩

theorem execute_written_then_read :
    (execute (pipe ([writing] ++ [reading "a", reading "b"])) fresh).1
        = .fail "No such file or directory: /b"
      ∧ execute (pipe ([reading "a"] ++ [writing])) fresh = execute (pipe [reading "a"]) fresh :=
  ⟨((execute_append [writing] fresh).1 _ _ fun _ => rfl).1.trans rfl,
    (execute_append [reading "a"] fresh).2 rfl _⟩

end Shell

end PipeShell
