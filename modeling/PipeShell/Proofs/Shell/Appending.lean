import PipeShell.Proofs.Shell.Dialogue
import PipeShell.Proofs.Shell.Observers
import PipeShell.Proofs.Store.Outside

/-!
# Writing and appending

A line that writes to a file puts a text behind the former one or in its place, wherever the text comes
from. Lines that append one after another leave the former text with all of theirs behind it.
-/

namespace PipeShell

open PipeShell.Action
open PipeShell.Path (segments)

/-! ## The text at a path -/

namespace PathMap

variable {m : PathMap} {path : List Text} {text : Text}

/-- The text of the file at the path, or none if there is no file. -/
def textAt (path : List Text) (m : PathMap) : Text :=
  match m path with
  | some (.file text) => text
  | _ => []

theorem textAt_of_file (h : m path = some (.file text)) : m.textAt path = text := by
  rw [textAt, h]

theorem textAt_of_unbound (h : m path = none) : m.textAt path = [] := by
  rw [textAt, h]

theorem create_self (path : List Text) (text : Text) (m : PathMap) :
    m.create path text path = some (.file text) :=
  if_pos rfl

end PathMap

/-- A text for a file, and whether it goes behind the former text or in its place. -/
structure Writing where
  append : Bool
  text : Text
  deriving DecidableEq, Repr

namespace Writing

/-- What a write has for its file: the content that is given, or else the piped text. -/
def ofArgs (args : Args) (piped : Option Text) : Writing :=
  ⟨args.holds .append, (args.text? .content).getD (piped.getD [])⟩

/-- The text of the file after it was written. -/
def after (former : Text) (w : Writing) : Text :=
  (if w.append then former else []) ++ w.text

/-- The texts that are written, one behind the other. -/
def texts (ws : List Writing) : Text :=
  (ws.map text).flatten

variable {former : Text} {w : Writing} {ws : List Writing}

theorem foldl_after_of_append (h : ∀ w ∈ ws, w.append = true) :
    ws.foldl after former = former ++ texts ws := by
  induction ws generalizing former with
  | nil => exact (List.append_nil former).symm
  | cons w ws ih =>
      rw [List.foldl_cons, ih fun u hu => h u (List.mem_cons_of_mem _ hu), after,
        if_pos (h w List.mem_cons_self), List.append_assoc]
      rfl

/-- What was there before the last text that is not appended does not matter. -/
theorem foldl_after_of_plain (hw : w.append = false) (h : ∀ u ∈ ws, u.append = true)
    (front : List Writing) : (front ++ w :: ws).foldl after former = w.text ++ texts ws := by
  rw [List.foldl_append, List.foldl_cons, foldl_after_of_append h, after, hw]
  rfl

end Writing

/-! ## The command -/

namespace Store

variable {α : Type} {w w' : World} {m : Memory} {refused : Prop} {update : PathMap}
  {answer : α → Prop} {x : Action World α} {a : α}

theorem Settles.of_outcome_ok (h : Settles w m refused update answer x)
    (ho : x.outcome w = (.ok a, w')) :
    ∃ m' records, w' = w.stored m' records ∧ m'.Tidy Path.IsSegment ∧ ¬refused
      ∧ m'.pathMap = update := by
  obtain ⟨m', records, hworld, htidy, hends⟩ := h
  rw [ho] at hworld hends
  cases hends with
  | done hopen hmap _ => exact ⟨m', records, hworld, htidy, hopen, hmap⟩

end Store

namespace Command

variable {s s' : ShellState} {m : Memory} {args : Args} {piped : Option Text} {path : Text}
  {r : Result}

theorem stored_of_settles {α : Type} {refused : Prop} {update : PathMap} {P : α → Prop}
    {x : Action World α} {answer : Result} (hx : Store.Settles s.world m refused update P x)
    (ho : (do let _ ← (liftM x : Action ShellState α); pure answer : Command).outcome s
      = (.ok r, s')) :
    ∃ m' records, s' = { s with world := s.world.stored m' records } ∧ m'.Tidy Path.IsSegment
      ∧ ¬refused ∧ m'.pathMap = update := by
  obtain ⟨a, t, hchange, hanswer⟩ := bind_eq_ok ho
  rw [outcome_liftM_world, Prod.mk.injEq] at hchange
  obtain ⟨hok, rfl⟩ := hchange
  obtain ⟨m', records, hworld, hends⟩ := hx.of_outcome_ok (Prod.ext hok rfl)
  obtain rfl := (Prod.mk.inj hanswer).2
  exact ⟨m', records, congrArg (fun w => ({ s with world := w } : ShellState)) hworld, hends⟩

/-- The second state is the first one with a text in the file at the place, and with the directories
above it. -/
def Wrote (m : Memory) (place : List Text) (text : Text) (s s' : ShellState) : Prop :=
  ∃ m' records, s' = { s with world := s.world.stored m' records } ∧ m'.Tidy Path.IsSegment
    ∧ m.pathMap place ≠ some .directory ∧ m'.pathMap = m.pathMap.create place text

section

variable {target content : Text} {answer : Result} (hm : m.Tidy Path.IsSegment)
  (hw : s.world.backing = .memory m) (hf : s.world.faults = {})
include hm hw

theorem wrote_of_createFile
    (ho : (do let _ ← Store.createFile target content; return answer : Command).outcome s
      = (.ok r, s')) : Wrote m (segments target) content s s' := by
  obtain ⟨m', records, hworld, htidy, hopen, hmap⟩ :=
    stored_of_settles (Store.settles_createFile hm hw target content) ho
  exact ⟨m', records, hworld, htidy, fun hdir => hopen (.inl hdir), hmap⟩

include hf

theorem wrote_of_replace
    (ho : (do Store.write target content; return answer : Command).outcome s = (.ok r, s')) :
    Wrote m (segments target) content s s' := by
  obtain ⟨m', records, hworld, htidy, hfile, hmap⟩ :=
    stored_of_settles (Store.settles_write hm hw hf target content) ho
  have hfile := Classical.not_not.mp hfile
  refine ⟨m', records, hworld, htidy, hfile.not_directory, ?_⟩
  obtain ⟨former, hformer⟩ := hfile
  rw [hmap, m.prefixClosed_pathMap.create_of_file hformer]

/-- A write that is answered has put its text into the file. -/
theorem wrote_of_write (hpath : args.text? .path = some path)
    (ho : (write args piped).outcome s = (.ok r, s')) :
    Wrote m (segments (s.shell.resolve (some path)))
      ((Writing.ofArgs args piped).after
        (m.pathMap.textAt (segments (s.shell.resolve (some path))))) s s' := by
  simp only [write, hpath] at ho
  obtain ⟨target, t, hresolve, ho⟩ := bind_eq_ok ho
  obtain ⟨rfl, rfl⟩ := hresolve
  obtain ⟨held, t, hholds, ho⟩ := bind_eq_ok ho
  rw [outcome_liftM_world, Store.outcome_holds hw] at hholds
  obtain ⟨rfl, rfl⟩ := hholds
  generalize s.shell.resolve (some path) = target at ho ⊢
  rw [Writing.after, Writing.ofArgs]
  -- A file that exists is replaced, on request behind its own text; another one is created.
  split at ho
  · split at ho
    · rename_i happend
      obtain ⟨former, t, hread, ho⟩ := bind_eq_ok ho
      rw [outcome_liftM_world, Store.outcome_read hw (Store.unbroken_of_faultless hf)] at hread
      obtain ⟨hok, rfl⟩ := Prod.mk.inj hread
      rw [if_pos happend, PathMap.textAt_of_file (Memory.read_eq_ok.mp hok)]
      exact wrote_of_replace hm hw hf ho
    · rename_i hplain
      rw [if_neg hplain]
      exact wrote_of_replace hm hw hf ho
  · rename_i hmissing
    have hunbound : m.pathMap (segments target) = none :=
      Classical.not_not.mp (mt Memory.holds_iff.mpr hmissing)
    rw [PathMap.textAt_of_unbound hunbound, ite_self]
    exact wrote_of_createFile hm hw ho

end

end Command

/-! ## Lines -/

namespace Shell

variable {place : List Text} {line : Text} {s s' : ShellState} {m : Memory} {stage : Stage}
  {front stages : List Stage} {r : Result} {w : Writing} {ws : List Writing}

/-- A line that succeeds has run its stages, all of them. -/
theorem RunsStages.execute_of_succeeded (hruns : RunsStages line stages)
    (hexec : (exec line).outcome s = (.ok r, s')) (hr : r.succeeded = true) :
    ∃ records q, execute (pipe stages) (s.noted records) = (q, s') ∧ q.succeeded = true := by
  obtain ⟨hblank, p, hread, hpipe, herror, rfl⟩ := hruns
  obtain ⟨records, q, t, hrun, hline⟩ := execPipeline_run line hpipe herror s
  rw [exec, Handlers.outcome_exec, if_neg hblank, hread] at hexec
  simp only [hline, Prod.mk.injEq, Except.ok.injEq] at hexec
  obtain ⟨rfl, rfl⟩ := hexec
  refine ⟨records, q, hrun, ?_⟩
  split at hr <;> exact hr

/-- The command of the last stage is answered, and what it leaves is left by them all. -/
theorem outcome_last_of_succeeded (hrun : execute (pipe (front ++ [stage])) s = (r, s'))
    (hr : r.succeeded = true) :
    ∃ records answer, (Command.ofVerb stage.verb stage.args
      (if stage.verb.isPipeAware then
        if front = [] then none else some (execute (pipe front) s).1.output
      else none)).outcome ((execute (pipe front) s).2.noted records) = (.ok answer, s') := by
  rw [execute_pipe, Handlers.runStages_append_piped front 0 none rfl] at hrun
  rw [← execute_pipe] at hrun
  split at hrun
  · generalize (if front = [] then none else some (execute (pipe front) s).1.output) = piped at hrun ⊢
    generalize execute (pipe front) s = before at hrun ⊢
    have hran := ran_runStage stage piped before.2
    generalize hstage : runStage stage piped before.2 = out at hran
    obtain ⟨q, t⟩ := out
    cases he : q.error with
    | none =>
        rw [Handlers.runStages_passed hstage he] at hrun
        obtain ⟨rfl, rfl⟩ := Prod.mk.inj hrun
        exact hran.outcome_of_succeeded hr
    | some error =>
        rw [Handlers.runStages_failed hstage he] at hrun
        obtain ⟨rfl, -⟩ := Prod.mk.inj hrun
        simp [Result.succeeded, he] at hr
  · rename_i hfailed
    rw [hrun] at hfailed
    exact absurd hr hfailed

/-- A line that succeeds and whose last stage writes to the place, while the stages before only observe
the store. The text is the content that the write is given, or else what these stages put out. -/
inductive Writes (place : List Text) (s : ShellState) (w : Writing) (s' : ShellState) : Prop
  | line {line : Text} {front : List Stage} {args : Args} {path : Text} {r : Result}
      (hruns : RunsStages line (front ++ [⟨.write, args⟩]))
      (hfront : ∀ stage ∈ front, stage.verb ∉ Verb.changing)
      (hpath : args.text? .path = some path)
      (hplace : segments ((execute (pipe front) s).2.shell.resolve (some path)) = place)
      (htext : w = Writing.ofArgs args (some (execute (pipe front) s).1.output))
      (hexec : (exec line).outcome s = (.ok r, s')) (hr : r.succeeded = true) :
      Writes place s w s'

/-- Lines that write to the place, one after another. -/
inductive WritesAll (place : List Text) : ShellState → List Writing → ShellState → Prop
  | nil {s : ShellState} : WritesAll place s [] s
  | cons {s t s' : ShellState} {w : Writing} {ws : List Writing} :
      Writes place s w t → WritesAll place t ws s' → WritesAll place s (w :: ws) s'

/-- A write without stages before it has nothing piped into it, which counts as an empty text. -/
theorem ofArgs_handedOn (args : Args) (front : List Stage) (s : ShellState) :
    Writing.ofArgs args (if front = [] then none else some (execute (pipe front) s).1.output)
      = Writing.ofArgs args (some (execute (pipe front) s).1.output) := by
  cases front <;> rfl

/-- A line that writes leaves its text in the file, and the shell at most in another directory. -/
theorem Writes.stored (h : Writes place s w s') (hm : m.Tidy Path.IsSegment)
    (hw : s.world.backing = .memory m) (hf : s.world.faults = {}) :
    ∃ m' cwd, s'.world.backing = .memory m' ∧ s'.world.faults = {}
      ∧ s'.shell = { s.shell with cwd } ∧ m'.Tidy Path.IsSegment
      ∧ m.pathMap place ≠ some .directory
      ∧ m'.pathMap = m.pathMap.create place (w.after (m.pathMap.textAt place)) := by
  obtain ⟨hruns, hfront, hpath, rfl, rfl, hexec, hr⟩ := h
  rename_i line front args path r
  obtain ⟨records, q, hrun, hq⟩ := hruns.execute_of_succeeded hexec hr
  obtain ⟨records', answer, ho⟩ := outcome_last_of_succeeded hrun hq
  obtain ⟨houtput, hshell, hbacking, hfaults⟩ := execute_observing hfront s records
  -- The stages in front write nothing, so the last one finds the store as the line did.
  have hwriting := ofArgs_handedOn args front (s.noted records)
  generalize execute (pipe front) (s.noted records) = out at houtput hbacking hfaults hshell hwriting ho
  have ho : (Command.write args (if front = [] then none else some out.1.output)).outcome
      (out.2.noted records') = (.ok answer, s') := ho
  obtain ⟨m', _, rfl, htidy, hopen, hmap⟩ := Command.wrote_of_write (s := out.2.noted records') hm
    (hbacking.trans hw) (hfaults.trans hf) hpath ho
  have hplace : (out.2.noted records').shell = (execute (pipe front) s).2.shell := hshell
  rw [hplace] at hopen hmap
  rw [hwriting, houtput] at hmap
  obtain ⟨cwd, hcwd⟩ := shell_runStages 0 none (.ok []) front s
  exact ⟨m', cwd, rfl, hfaults.trans hf, hplace.trans hcwd, htidy, hopen, hmap⟩

/-- The invariant of lines that write: the file holds what they made of its text, and all else is kept. -/
theorem WritesAll.stored (h : WritesAll place s ws s') (hm : m.Tidy Path.IsSegment)
    (hw : s.world.backing = .memory m) (hf : s.world.faults = {}) :
    ∃ m' cwd, s'.world.backing = .memory m' ∧ s'.world.faults = {}
      ∧ s'.shell = { s.shell with cwd }
      ∧ (m.pathMap.IsFile place ∨ ws ≠ [] →
          m'.pathMap place = some (.file (ws.foldl Writing.after (m.pathMap.textAt place))))
      ∧ m.pathMap.KeptOutside (· = place) (fun _ => False) m'.pathMap := by
  induction h generalizing m with
  | nil =>
      refine ⟨m, _, hw, hf, rfl, fun h => ?_, .refl _⟩
      obtain ⟨text, hfile⟩ := h.resolve_right (· rfl)
      rw [hfile, List.foldl_nil, PathMap.textAt_of_file hfile]
  | cons hwrite _ ih =>
      obtain ⟨m₁, cwd₁, hw₁, hf₁, hshell₁, hm₁, hopen, hmap⟩ := hwrite.stored hm hw hf
      obtain ⟨m', cwd, hw', hf', hshell, htext, hkept⟩ := ih hm₁ hw₁ hf₁
      have hfile := hmap ▸ PathMap.create_self place _ m.pathMap
      refine ⟨m', cwd, hw', hf', by rw [hshell, hshell₁], fun _ => ?_, ?_⟩
      · rw [htext (.inl ⟨_, hfile⟩), PathMap.textAt_of_file hfile, List.foldl_cons]
      · have hne : place ≠ [] := fun hnil => hopen (hnil ▸ m.prefixClosed_pathMap.root)
        have hcreate (text : Text) : m.pathMap.KeptOutside (· = place) (fun _ => False)
            (m.pathMap.create place text) := by
          refine .create hne ?_ hopen text
          rfl
        exact (hmap ▸ hcreate _).trans hkept

/-- The whole of a file is shown, as far as the output may be that long. -/
theorem fst_execute_concatenate {path text : Text} (hw : s.world.backing = .memory m)
    (hf : s.world.faults = {}) (hfile : m.pathMap (segments (s.shell.resolve (some path)))
      = some (.file text)) (hknown : s.shell.commands.contains .concatenate = true)
    (hallowed : s.shell.allows .concatenate = true) :
    (execute (pipe [⟨.concatenate, [(.path, .text path)]⟩]) s).1
      = limitOutput s.shell.maxOutput (.ok text) := by
  have hreads : s.Reads path text := by
    rw [ShellState.Reads, Store.outcome_read hw (Store.unbroken_of_faultless hf)]
    exact Memory.read_eq_ok.mpr hfile
  obtain ⟨record, hrun⟩ := runStage_concatenate_limited hreads hknown hallowed
  rw [execute_pipe, Handlers.fst_runStages_single]
  exact congrArg Prod.fst hrun

/-- Lines that append to a file, and all succeed, leave its former text with theirs behind it, one after
another. A line that writes without appending starts over: what was there before does not matter. All
other files are as before, and what is shown of the file is what it holds. -/
theorem WritesAll.accumulate (hm : m.Reached) (hw : s.world.backing = .memory m)
    (hf : s.world.faults = {}) (h : WritesAll place s ws s') :
    ∃ m', s'.world.backing = .memory m'
      ∧ (ws ≠ [] → (∀ w ∈ ws, w.append = true) →
          m'.pathMap place = some (.file (m.pathMap.textAt place ++ Writing.texts ws)))
      ∧ (∀ before w more, ws = before ++ w :: more → w.append = false →
          (∀ u ∈ more, u.append = true) →
          m'.pathMap place = some (.file (w.text ++ Writing.texts more)))
      ∧ m.pathMap.KeptOutside (· = place) (fun _ => False) m'.pathMap
      ∧ ∀ path text, segments (s'.shell.resolve (some path)) = place →
          m'.pathMap place = some (.file text) →
          s.shell.commands.contains .concatenate = true →
          s.shell.allows .concatenate = true →
          (execute (pipe [⟨.concatenate, [(.path, .text path)]⟩]) s').1
            = limitOutput s.shell.maxOutput (.ok text) := by
  obtain ⟨m', cwd, hw', hf', hshell, htext, hkept⟩ := h.stored hm.tidy hw hf
  refine ⟨m', hw', ?_, ?_, hkept, ?_⟩
  · intro hne happend
    rw [htext (.inr hne), Writing.foldl_after_of_append happend]
  · rintro before w more rfl hplain happend
    rw [htext (.inr (by simp)), Writing.foldl_after_of_plain hplain happend]
  · rintro path text rfl hfile hknown hallowed
    rw [fst_execute_concatenate hw' hf' hfile (by rwa [hshell]) (by rw [hshell]; exact hallowed),
      hshell]

/-- The file `a`, which holds `x`, with `yz` appended. -/
def appendedOnce : ShellState :=
  ((exec "write -a a yz").outcome singleState).2

/-- The same file with the output of an echo appended, too. -/
def appendedTwice : ShellState :=
  ((exec "echo w | write --append ./a").outcome appendedOnce).2

theorem writesAll_appended :
    WritesAll [['a']] singleState [⟨true, "yz"⟩, ⟨true, "w"⟩] appendedTwice := by
  have hinline : RunsStages "write -a a yz"
      ([] ++ [⟨.write, [(.append, .flag true), (.path, .text "a"), (.content, .text "yz")]⟩]) :=
    ⟨by decide +kernel, pipe _, by decide +kernel, rfl, rfl, rfl⟩
  have hpiped : RunsStages "echo w | write --append ./a"
      ([⟨.echo, [(.text, .text "w")]⟩] ++ [⟨.write, [(.append, .flag true), (.path, .text "./a")]⟩]) :=
    ⟨by decide +kernel, pipe _, by decide +kernel, rfl, rfl, rfl⟩
  have honce : (exec "write -a a yz").outcome singleState
      = (.ok (.ok "Written to: /a"), appendedOnce) := by
    refine Prod.ext (by decide +kernel) ?_
    rw [appendedOnce]
  have htwice : (exec "echo w | write --append ./a").outcome appendedOnce
      = (.ok (.ok "Written to: /a"), appendedTwice) := by
    refine Prod.ext (by decide +kernel) ?_
    rw [appendedTwice]
  refine .cons (.line hinline (by simp) rfl ?_ ?_ honce rfl)
    (.cons (.line hpiped (by decide) rfl ?_ ?_ htwice rfl) .nil)
  all_goals decide +kernel

/-- Inline and piped texts stand behind the former one, and are shown with it. -/
theorem accumulate_appended :
    ∃ m', appendedTwice.world.backing = .memory m'
      ∧ m'.pathMap [['a']] = some (.file "xyzw")
      ∧ (execute (pipe [⟨.concatenate, [(.path, .text "a")]⟩]) appendedTwice).1 = .ok "xyzw" := by
  obtain ⟨m', hback, htext, -, -, hshown⟩ :=
    WritesAll.accumulate Call.reached_single rfl rfl writesAll_appended
  have hfile := htext (by simp) (by simp)
  exact ⟨m', hback, hfile, hshown "a" _ (by decide +kernel) hfile rfl rfl⟩

end Shell

end PipeShell
