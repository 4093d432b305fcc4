import PipeShell.Proofs.Shell.Commands

/-!
# Dialogues

The lines that run in a shell one after another, with the answers of all stages that they run. As
long as no path keeps a root of its own, the working directory and all paths that are shown stay in
normal form.
-/

namespace PipeShell

open PipeShell.Action PipeShell.Path

/-- No path that the command of the stage resolves keeps a root of its own. An import names files of
the host, which are not resolved. -/
def Stage.StaysInside (stage : Stage) : Prop :=
  stage.verb ≠ .importFiles → stage.args.StaysInside

namespace Shell

/-! ## What runs -/

/-- Stages run up to the first one that fails. These are the answers of those that run. -/
inductive Runs : List Stage → Option Text → ShellState → List (Verb × Result) → ShellState → Prop
  | done {before s} : Runs [] before s [] s
  | failed {stage rest before s r t records} :
      Ran stage before s r t → r.succeeded = false →
      Runs (stage :: rest) before s [(stage.verb, r)] (t.noted records)
  | passed {stage rest before s r t answers s'} :
      Ran stage before s r t → r.succeeded = true → Runs rest (some r.output) t answers s' →
      Runs (stage :: rest) before s ((stage.verb, r) :: answers) s'

/-- The last answer, if there is one. -/
def lastAnswer (last : Result) (answers : List (Verb × Result)) : Result :=
  (answers.getLast?.map Prod.snd).getD last

/-- How a line runs: the answers of its stages, what the shell says to the line, and the state that
it leaves. A line that is no pipeline runs no stage. -/
inductive Spoken (line : Text) (s : ShellState) :
    List (Verb × Result) → Except Failure Result → ShellState → Prop
  | silent {out} : (∀ stages, ¬RunsStages line stages) → Spoken line s [] out s
  | run {stages answers records r s'} : RunsStages line stages →
      Runs stages none (s.noted records) answers s' →
      r.error = (lastAnswer (.ok []) answers).error →
      (lastAnswer (.ok []) answers).output <:+ r.output → Spoken line s answers (.ok r) s'

/-- Lines run one after another, with the answers of all their stages. -/
inductive Dialogue : ShellState → List Text → List (Verb × Result) → ShellState → Prop
  | nil {s} : Dialogue s [] [] s
  | cons {s line answers out t lines answers' s'} :
      (exec line).outcome s = (out, t) → Spoken line s answers out t →
      Dialogue t lines answers' s' → Dialogue s (line :: lines) (answers ++ answers') s'

variable {here : List Text} {s s' : ShellState} {stage : Stage} {stages : List Stage}
  {before : Option Text} {r : Result} {answers : List (Verb × Result)}

theorem lastAnswer_cons (last : Result) (v : Verb) (r : Result) (answers : List (Verb × Result)) :
    lastAnswer last ((v, r) :: answers) = lastAnswer r answers := by
  rw [lastAnswer, lastAnswer, List.getLast?_cons]
  cases answers.getLast? <;> rfl

theorem runs_runStages (index : Nat) (before : Option Text) (last : Result) (stages : List Stage)
    (s : ShellState) :
    ∃ answers, Runs stages before s answers (runStages index before last stages s).2
      ∧ (runStages index before last stages s).1 = lastAnswer last answers := by
  induction stages generalizing index before last s with
  | nil => exact ⟨[], .done, rfl⟩
  | cons stage rest ih =>
      have hran := ran_runStage stage before s
      generalize hrun : runStage stage before s = out at hran
      obtain ⟨r, t⟩ := out
      cases he : r.error with
      | some error =>
          rw [runStages, Handlers.runStages_failed hrun he]
          exact ⟨_, .failed hran (by simp [Result.succeeded, he]), rfl⟩
      | none =>
          obtain ⟨answers, hanswers, hlast⟩ := ih (index + 1) (some r.output) r t
          rw [runStages, Handlers.runStages_passed hrun he]
          refine ⟨_, .passed hran (by simp [Result.succeeded, he]) hanswers, ?_⟩
          rw [hlast, lastAnswer_cons]

theorem execPipeline_idle (line : Text) {p : Pipeline} (h : p.isPipeline = true → p.error ≠ none)
    (s : ShellState) : (Handlers.execPipeline Command.ofVerb line p s).2 = s := by
  rw [Handlers.execPipeline_eq]
  cases hp : p.isPipeline with
  | false => cases s.shell.fallback <;> rfl
  | true =>
      cases he : p.error with
      | none => exact absurd he (h hp)
      | some error => rfl

theorem execPipeline_run (line : Text) {p : Pipeline} (hp : p.isPipeline = true)
    (he : p.error = none) (s : ShellState) :
    ∃ records r s', runStages 0 none (.ok []) p.stages (s.noted records) = (r, s')
      ∧ Handlers.execPipeline Command.ofVerb line p s
        = (if s.shell.debug then describeAbove p r else r, s') := by
  refine ⟨[⟨.debug, .shell, "running " ++ p.describe⟩], _, _, rfl, ?_⟩
  have hrun : Handlers.execute Command.ofVerb p = runStages 0 none (.ok []) p.stages := by
    rw [Handlers.execute, he]
  rw [Handlers.execPipeline_run _ line hp he, hrun]

theorem output_describeAbove (p : Pipeline) (r : Result) :
    r.output <:+ (describeAbove p r).output := by
  unfold describeAbove
  dsimp only
  split
  · rename_i h
    simp [h]
  · exact List.suffix_append _ _

/-- Every line runs in one of these ways. -/
theorem spoken_exec (line : Text) (s : ShellState) :
    ∃ answers, Spoken line s answers ((exec line).outcome s).1 ((exec line).outcome s).2 := by
  rw [exec, Handlers.outcome_exec]
  by_cases hb : Text.strip line = []
  · rw [if_pos hb]
    exact ⟨[], .silent fun stages h => h.1 hb⟩
  · rw [if_neg hb]
    cases hr : Pipeline.read line with
    | error f => exact ⟨[], .silent fun stages ⟨_, p, hp, _⟩ => by simp [hr] at hp⟩
    | ok p =>
        dsimp only
        by_cases hp : p.isPipeline = true ∧ p.error = none
        · obtain ⟨records, r, s', hrun, hexec⟩ := execPipeline_run line hp.1 hp.2 s
          obtain ⟨answers, hruns, hlast⟩ :=
            runs_runStages 0 none (.ok []) p.stages (s.noted records)
          rw [hrun] at hruns hlast
          rw [hexec]
          refine ⟨answers, .run ⟨hb, p, hr, hp.1, hp.2, rfl⟩ hruns ?_ ?_⟩
          · rw [← hlast]
            split <;> rfl
          · rw [← hlast]
            split
            · exact output_describeAbove p r
            · exact List.suffix_rfl
        · rw [execPipeline_idle line fun h he => hp ⟨h, he⟩]
          refine ⟨[], .silent ?_⟩
          rintro stages ⟨_, q, hq, hpipe, herror, _⟩
          obtain rfl : p = q := by simpa [hr] using hq
          exact hp ⟨hpipe, herror⟩

theorem exists_dialogue (s : ShellState) (lines : List Text) :
    ∃ answers s', Dialogue s lines answers s' := by
  induction lines generalizing s with
  | nil => exact ⟨[], s, .nil⟩
  | cons line lines ih =>
      obtain ⟨answers, hspoken⟩ := spoken_exec line s
      obtain ⟨answers', s', hrest⟩ := ih ((exec line).outcome s).2
      exact ⟨_, s', .cons rfl hspoken hrest⟩

/-! ## What stays normal -/

theorem limitOutput_showsNormal {v : Verb} (limit : Option Int) (h : r.ShowsNormal v) :
    (limitOutput limit r).ShowsNormal v := by
  unfold limitOutput
  split
  · exact h
  · split
    · exact h
    · exact Shows.overlong.normal_nil

theorem tidy_noted (hs : s.Tidy here) (records : List LogRecord) : (s.noted records).Tidy here :=
  ⟨hs.cwd, hs.world.congr rfl rfl, hs.picker⟩

/-- A stage keeps the state tidy and shows only paths in normal form. -/
theorem Ran.tidy (h : Ran stage before s r s') (hs : s.Tidy here) (hp : stage.StaysInside) :
    s'.Tidy here ∧ r.ShowsNormal stage.verb := by
  have hkeeps : Command.Keeps here (Command.ofVerb stage.verb stage.args
      (if stage.verb.isPipeAware then before else none)) (Result.ShowsNormal stage.verb) :=
    Command.keeps_ofVerb hp _
  cases h with
  | unknown => exact ⟨hs, Shows.unknown.normal_nil⟩
  | disabled => exact ⟨hs, Shows.disabled.normal_nil⟩
  | answered ho =>
      obtain ⟨htidy, hshows⟩ := hkeeps.of_ok (tidy_noted hs _) ho
      exact ⟨htidy, limitOutput_showsNormal _ hshows⟩
  | refused ho hf =>
      obtain ⟨htidy, hshows⟩ := hkeeps.of_error (tidy_noted hs _) ho
      exact ⟨htidy, _, .refused hf, hshows⟩
  | broken ho hf =>
      obtain ⟨htidy, hshows⟩ := hkeeps.of_error (tidy_noted hs _) ho
      exact ⟨tidy_noted htidy _, _, .broken hf, hshows⟩

theorem Runs.tidy (h : Runs stages before s answers s') (hs : s.Tidy here)
    (hp : ∀ stage ∈ stages, stage.StaysInside) :
    s'.Tidy here ∧ ∀ a ∈ answers, a.2.ShowsNormal a.1 := by
  induction h with
  | done => exact ⟨hs, by simp⟩
  | failed hran _ =>
      obtain ⟨htidy, hshows⟩ := hran.tidy hs (hp _ (by simp))
      exact ⟨tidy_noted htidy _, by simpa using hshows⟩
  | passed hran _ _ ih =>
      obtain ⟨htidy, hshows⟩ := hran.tidy hs (hp _ (by simp))
      obtain ⟨htidy', hshows'⟩ := ih htidy fun stage h => hp stage (by simp [h])
      exact ⟨htidy', by simpa using ⟨hshows, by simpa using hshows'⟩⟩

theorem Spoken.tidy {line : Text} {out : Except Failure Result} (h : Spoken line s answers out s')
    (hs : s.Tidy here)
    (hp : ∀ stages, RunsStages line stages → ∀ stage ∈ stages, stage.StaysInside) :
    s'.Tidy here ∧ ∀ a ∈ answers, a.2.ShowsNormal a.1 := by
  cases h with
  | silent => exact ⟨hs, by simp⟩
  | run hline hruns => exact hruns.tidy (tidy_noted hs _) (hp _ hline)

theorem Dialogue.tidy {lines : List Text} (h : Dialogue s lines answers s') (hs : s.Tidy here)
    (hp : ∀ line ∈ lines, ∀ stages, RunsStages line stages → ∀ stage ∈ stages, stage.StaysInside) :
    s'.Tidy here ∧ ∀ a ∈ answers, a.2.ShowsNormal a.1 := by
  induction h with
  | nil => exact ⟨hs, by simp⟩
  | cons _ hspoken _ ih =>
      obtain ⟨htidy, hshows⟩ := hspoken.tidy hs (hp _ (by simp))
      obtain ⟨htidy', hshows'⟩ := ih htidy fun line h => hp line (by simp [h])
      refine ⟨htidy', fun a ha => ?_⟩
      exact (List.mem_append.mp ha).elim (hshows a) (hshows' a)

end Shell

/-- A path resolves to a path in normal form, the one that its pieces lead to, unless it keeps a root
of its own. As long as no path does, the working directory and every path that the shell shows stay
in normal form, whatever lines are run. -/
theorem normal_iff_not_keepsOwnRoot {cwd : Text} (hc : Normal cwd) (path : Option Text)
    {here : List Text} {s : ShellState} (hs : s.Tidy here) {lines : List Text}
    (hp : ∀ line ∈ lines, ∀ stages, Shell.RunsStages line stages →
      ∀ stage ∈ stages, stage.StaysInside) :
    (Normal (Path.resolve cwd path) ∧ join [Path.resolve cwd path] = Path.resolve cwd path
        ∧ Path.resolve cwd path = ofSegments (trail cwd (path.getD []))
      ↔ ¬KeepsOwnRoot (path.getD []))
      ∧ ∃ answers s', Shell.Dialogue s lines answers s' ∧ Normal s'.shell.cwd
          ∧ ∀ a ∈ answers, a.2.ShowsNormal a.1 := by
  refine ⟨⟨fun h hroot => ?_, fun h => ?_⟩, ?_⟩
  · have hkept : Path.resolve cwd path = ofSegments (['/', '/'] :: trail cwd (path.getD [])) := by
      rw [← resolve_of_keepsOwnRoot hroot cwd]
      cases path <;> rfl
    have habs := isAbsolute_ownRoot (trail cwd (path.getD []))
    rw [← hkept, h.1.relative] at habs
    cases habs
  · have hn := normal_resolve hc h
    refine ⟨hn, hn.join_eq, ?_⟩
    rw [← resolve_of_not_keepsOwnRoot hc h]
    cases path <;> rfl
  · obtain ⟨answers, s', hd⟩ := Shell.exists_dialogue s lines
    obtain ⟨htidy, hshows⟩ := hd.tidy hs hp
    exact ⟨answers, s', hd, htidy.cwd, hshows⟩

/-- The state of a fresh shell around an empty store. -/
def freshState : ShellState :=
  ⟨{}, { backing := .memory { quota := 10 } }⟩

/-- A path with odd spelling from the directory `a`, and a line that goes nowhere. -/
theorem normal_after_cd :
    (Normal (Path.resolve ['a'] (some "..//b/.")) ∧
        join [Path.resolve ['a'] (some "..//b/.")] = Path.resolve ['a'] (some "..//b/.")
          ∧ Path.resolve ['a'] (some "..//b/.") = ofSegments (trail ['a'] "..//b/."))
      ∧ ∃ answers s', Shell.Dialogue freshState ["cd ./b/.."] answers s' ∧ Normal s'.shell.cwd
          ∧ ∀ a ∈ answers, a.2.ShowsNormal a.1 := by
  have hcwd : Normal ['a'] := ⟨rfl, fun _ => by decide⟩
  have hfresh : freshState.Tidy [] := ⟨normal_nil, trivial, by simp [freshState]⟩
  have hread : Pipeline.read "cd ./b/.." = .ok
      { stages := [⟨.changeDirectory, [(.path, .text "./b/..")]⟩], isPipeline := true } := rfl
  have hinside : ∀ line ∈ [("cd ./b/.." : Text)], ∀ stages, Shell.RunsStages line stages →
      ∀ stage ∈ stages, stage.StaysInside := by
    rintro line hline stages ⟨_, p, hp, _, _, rfl⟩ stage hstage _
    obtain rfl := List.mem_singleton.mp hline
    rw [hread] at hp
    cases hp
    obtain rfl := List.mem_singleton.mp hstage
    rw [Args.StaysInside]
    decide
  have h := normal_iff_not_keepsOwnRoot hcwd (some "..//b/.") hfresh hinside
  exact ⟨h.1.mpr (by decide), h.2⟩

/-- A path that keeps a root of its own leads to no path in normal form, and a shell can go there. -/
theorem not_normal_resolve :
    ¬Normal (Path.resolve [] (some ['/', '/', 'a']))
      ∧ ((Shell.exec "cd //").outcome freshState).2.shell.cwd = ['/', '/'] :=
  ⟨fun h => absurd h.relative (by decide), rfl⟩

end PipeShell
