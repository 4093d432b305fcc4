import PipeShell.Proofs.Args.Keys
import PipeShell.Proofs.Shell.Move
import PipeShell.Proofs.Text.Lines

/-!
# Files and pipes

A verb that reads a text answers on a piped text as it answers on the file with that text: only a
search numbers the lines of a file, and only a count names the file. Between two stages a list of
lines keeps all of its lines unless the last one is blank.
-/

namespace PipeShell

open PipeShell.Action

/-! ## Reading does not depend on the log -/

namespace Store

theorem outcome_read_logged (path : Text) (w : World) (log : List LogRecord) :
    ((read path).outcome { w with log := log }).1 = ((read path).outcome w).1 := by
  simp only [read, outcome_bind, outcome_get]
  cases w.faults.brokenReads with
  | some cause => rfl
  | none =>
      simp only [World.ask, outcome]
      cases w.backing <;> rfl

end Store

/-- The shell can read the file that the user's path means, and this is its content. -/
def ShellState.Reads (s : ShellState) (path content : Text) : Prop :=
  ((Store.read (s.shell.resolve (some path))).outcome s.world).1 = .ok content

theorem ShellState.Reads.noted {s : ShellState} {path content : Text} (h : s.Reads path content)
    (records : List LogRecord) : (s.noted records).Reads path content :=
  (Store.outcome_read_logged _ _ _).trans h

/-! ## Records with and without the path -/

/-- The first record names a file, and the second one is the first without it. -/
structure Args.Names (direct rest : Args) (path : Text) : Prop where
  named : direct.get? .path = some (.text path)
  unnamed : rest.get? .path = none
  same : ∀ key, key ≠ .path → direct.get? key = rest.get? key

theorem Args.names_set (args : Args) (path : Text) :
    (args.set .path (.text path)).Names (args.without .path) path where
  named := get?_set_self _ _ _
  unnamed := get?_without_self _ _
  same _ h := by rw [get?_set_of_ne h, get?_without_of_ne h]

namespace Args.Names

variable {direct rest : Args} {path : Text} (hn : direct.Names rest path)
include hn

theorem text?_named : direct.text? .path = some path := by
  simp [Args.text?, hn.named, Value.text?]

theorem text?_unnamed : rest.text? .path = none := by
  simp [Args.text?, hn.unnamed]

theorem holds (key : Key) (h : key ≠ .path) : direct.holds key = rest.holds key := by
  rw [Args.holds, hn.same key h, Args.holds]

end Args.Names

/-! ## Answers on a file and on its text -/

/-- A line behind its number. -/
def Command.numberedLine (line : Text × Nat) : Text :=
  Text.ofNat line.2 ++ ":" ++ line.1

/-- How the answer of a verb on a file goes with its answer on the text of the file. -/
structure Result.Agree (v : Verb) (path content : Text) (direct piped : Result) : Prop where
  error : direct.error = piped.error
  counted : v = .wordCount → piped.error = none → direct.output = piped.output ++ " " ++ path
  searched : v = .search → piped.error = none → ∃ selects : Text → Bool,
    piped.output = Text.joinLines ((Text.lines content).filter selects)
      ∧ direct.output = Text.joinLines
          ((((Text.lines content).zipIdx 1).filter fun line => selects line.1).map
            Command.numberedLine)
  equal : v ≠ .wordCount → v ≠ .search → direct = piped

/-- The two attempts fail alike, or their answers go together. -/
inductive Result.Tried (v : Verb) (path content : Text) :
    Except Failure Result → Except Failure Result → Prop
  | answered {direct piped} (h : Result.Agree v path content direct piped) :
      Tried v path content (.ok direct) (.ok piped)
  | failed (f : Failure) : Tried v path content (.error f) (.error f)

/-- The verbs that view one text, of a file or from the pipe. -/
def Verb.viewing : List Verb :=
  [.sort, .deduplicate, .wordCount, .head, .tail, .search]

namespace Result

variable {v : Verb} {path content : Text}

theorem agree_fail (error : Text) : Agree v path content (.fail error) (.fail error) where
  error := rfl
  counted _ h := by simp [fail] at h
  searched _ h := by simp [fail] at h
  equal _ _ := rfl

theorem tried_self (hcount : v ≠ .wordCount) (hsearch : v ≠ .search)
    (r : Except Failure Result) : Tried v path content r r := by
  cases r with
  | ok r =>
      exact .answered ⟨rfl, fun h => absurd h hcount, fun h => absurd h hsearch, fun _ _ => rfl⟩
  | error f => exact .failed f

end Result

namespace Command

variable {direct rest : Args} {path content : Text} {s t : ShellState}

theorem outcome_bind_read {α : Type} (h : s.Reads path content)
    (k : Text → Action ShellState α) :
    (resolve (some path) >>= fun place => liftM (Store.read place) >>= k).outcome s
      = (k content).outcome s := by
  have hread : (Store.read (s.shell.resolve (some path))).outcome s.world
      = (.ok content, s.world) := Prod.ext h (Store.outcome_read_snd _ _)
  simp only [outcome_bind, outcome_resolve, outcome_liftM_world, hread]

theorem selectLines_plain (selects : Text → Bool) (content : Text) :
    selectLines selects false content = (Text.lines content).filter selects := by
  calc selectLines selects false content
      = ((Text.lines content).zipIdx 1).filterMap (Option.guard (selects ·) ∘ Prod.fst) := by
        refine congrArg (List.filterMap · _) (funext fun line => ?_)
        simp [Option.guard]
    _ = (((Text.lines content).zipIdx 1).map Prod.fst).filterMap (Option.guard (selects ·)) :=
        List.filterMap_map.symm
    _ = (Text.lines content).filter selects := by
        rw [List.zipIdx_map_fst, List.filterMap_eq_filter]

theorem selectLines_numbered (selects : Text → Bool) (content : Text) :
    selectLines selects true content
      = (((Text.lines content).zipIdx 1).filter fun line => selects line.1).map numberedLine := by
  rw [← List.filterMap_eq_map, List.filterMap_filter]
  rfl

section Verbs

variable (hn : direct.Names rest path) (hr : s.Reads path content)
include hn hr

theorem outcome_input_named (hpaths : direct.get? .paths = none) :
    (input direct none).outcome s = (.ok (some content), s) := by
  have hsource : direct.sourcePaths = [path] := by
    simp [Args.sourcePaths, Args.texts?, hpaths, hn.text?_named]
  simp only [input, hsource, readAll, bind_assoc, pure_bind]
  rw [outcome_bind_read hr]
  rfl

theorem outcome_withInput_named (hpaths : direct.get? .paths = none) (form : Text)
    (run : Text → Command) :
    (withInput direct none form run).outcome s = (run content).outcome s := by
  rw [withInput, outcome_bind_ok (outcome_input_named hn hr hpaths)]

omit hn hr in
theorem outcome_withInput_piped (form : Text) (run : Text → Command) :
    (withInput rest (some content) form run).outcome t = (run content).outcome t := rfl

theorem fst_outcome_sort {collate : Collation} (hpaths : direct.get? .paths = none) :
    ((sort collate direct none).outcome s).1
      = ((sort collate rest (some content)).outcome t).1 := by
  rw [sort, sort, outcome_withInput_named hn hr hpaths, outcome_withInput_piped]
  simp only [hn.holds .numeric (by decide), hn.holds .ignoreCase (by decide),
    hn.holds .reverse (by decide), hn.holds .unique (by decide), outcome_bind, outcome_ite]
  split <;> rfl

theorem fst_outcome_deduplicate (hpaths : direct.get? .paths = none) :
    ((deduplicate direct none).outcome s).1
      = ((deduplicate rest (some content)).outcome t).1 := by
  rw [deduplicate, deduplicate, outcome_withInput_named hn hr hpaths, outcome_withInput_piped]
  simp only [hn.holds .ignoreCase (by decide), hn.holds .duplicatesOnly (by decide),
    hn.holds .uniqueOnly (by decide), hn.holds .count (by decide)]
  rfl

theorem fst_outcome_lineWindow (fromEnd : Bool) :
    ((lineWindow fromEnd direct none).outcome s).1
      = ((lineWindow fromEnd rest (some content)).outcome t).1 := by
  simp only [lineWindow, hn.text?_named, hn.text?_unnamed, hn.same .lines (by decide)]
  rw [outcome_bind_read hr]
  rfl

theorem tried_wordCount (hpaths : direct.get? .paths = none) :
    Result.Tried .wordCount path content ((wordCount direct none).outcome s).1
      ((wordCount rest (some content)).outcome t).1 := by
  rw [wordCount, wordCount, outcome_withInput_named hn hr hpaths, outcome_withInput_piped]
  simp only [counts, List.filter_cons, List.filter_nil, hn.text?_named,
    hn.same .countLines (by decide), hn.same .countWords (by decide),
    hn.same .countChars (by decide)]
  exact .answered ⟨rfl, fun _ _ => rfl, by simp, by simp⟩

theorem tried_search :
    Result.Tried .search path content ((search direct none).outcome s).1
      ((search rest (some content)).outcome t).1 := by
  have hpattern : direct.text? .pattern = rest.text? .pattern := by
    rw [Args.text?, hn.same .pattern (by decide), Args.text?]
  simp only [search, hpattern]
  cases rest.text? .pattern with
  | none => exact .answered (Result.agree_fail _)
  | some source =>
      simp only []
      cases Pattern.read source with
      | error e =>
          cases e with
          | failure f => exact .failed f
          | malformed wording position => exact .answered (Result.agree_fail _)
      | ok found =>
          obtain ⟨pattern, modes⟩ := found
          simp only [hn.text?_named, hn.holds .invertMatch (by decide)]
          rw [outcome_bind_read hr]
          let selects := fun line => Pattern.occursIn modes pattern line != rest.holds .invertMatch
          refine .answered ⟨rfl, by simp, fun _ _ => ⟨selects, ?_, ?_⟩, by simp⟩
          · exact congrArg Text.joinLines (selectLines_plain _ _)
          · exact congrArg Text.joinLines (selectLines_numbered _ _)

end Verbs

/-- A verb that views a text tries the same on a file and on the text of the file. -/
theorem tried_ofVerb {v : Verb} (hv : v ∈ Verb.viewing) (hn : direct.Names rest path)
    (hr : s.Reads path content)
    (hpaths : v = .sort ∨ v = .deduplicate ∨ v = .wordCount → direct.get? .paths = none) :
    Result.Tried v path content ((ofVerb v direct none).outcome s).1
      ((ofVerb v rest (some content)).outcome t).1 := by
  simp only [Verb.viewing, List.mem_cons, List.not_mem_nil, or_false] at hv
  rcases hv with rfl | rfl | rfl | rfl | rfl | rfl
  · exact fst_outcome_sort hn hr (hpaths (by simp)) ▸ Result.tried_self (by decide) (by decide) _
  · exact fst_outcome_deduplicate hn hr (hpaths (by simp))
      ▸ Result.tried_self (by decide) (by decide) _
  · exact tried_wordCount hn hr (hpaths (by simp))
  · exact fst_outcome_lineWindow hn hr false ▸ Result.tried_self (by decide) (by decide) _
  · exact fst_outcome_lineWindow hn hr true ▸ Result.tried_self (by decide) (by decide) _
  · exact tried_search hn hr

end Command

/-! ## Runs on a file and on its text -/

namespace Handlers

variable {handlers : Handlers} {s s' : ShellState}

/-- The answer of a stage does not depend on the log or on the state that the command leaves. -/
theorem fst_runCommand (stage : Stage) (piped : Option Text) (s : ShellState) :
    (handlers.runCommand stage piped s).1
      = match ((handlers stage.verb stage.args piped).outcome s).1 with
        | .ok r => Shell.limitOutput s.shell.maxOutput r
        | .error f =>
            .fail (if f.isExpected then f.message else stage.verb.word ++ " failed: " ++ f.message)
      := by
  generalize hout : (handlers stage.verb stage.args piped).outcome s = out
  obtain ⟨r, s'⟩ := out
  cases r with
  | ok r => rw [runCommand_ok hout]
  | error f =>
      rw [runCommand_error hout]
      by_cases hf : f.isExpected = true <;> simp [hf]

theorem fst_runStages_single (index : Nat) (before : Option Text) (last : Result) (stage : Stage)
    (s : ShellState) :
    (handlers.runStages index before last [stage] s).1 = (handlers.runStage stage before s).1 := by
  generalize hrun : handlers.runStage stage before s = out
  obtain ⟨r, s'⟩ := out
  cases he : r.error with
  | none => rw [runStages_passed hrun he]; rfl
  | some error => rw [runStages_failed hrun he]

end Handlers

namespace Shell

open Command

variable {s t : ShellState} {v : Verb} {args direct rest : Args} {tokens : List Text}
  {path content : Text}

/-- Stages run as a pipeline. -/
def pipe (stages : List Stage) : Pipeline where
  stages := stages
  isPipeline := true

theorem execute_pipe (stages : List Stage) (s : ShellState) :
    execute (pipe stages) s = Handlers.runStages ofVerb 0 none (.ok []) stages s := rfl

theorem runStage_concatenate_limited (hr : s.Reads path content)
    (hknown : s.shell.commands.contains .concatenate = true)
    (hallowed : s.shell.allows .concatenate = true) :
    ∃ record, runStage ⟨.concatenate, [(.path, .text path)]⟩ none s
      = (limitOutput s.shell.maxOutput (.ok content), s.noted [record]) := by
  obtain ⟨record, hrun⟩ := Handlers.runStage_eq ⟨.concatenate, [(.path, .text path)]⟩ none
  have hn : Args.Names [(.path, .text path)] [] path := ⟨rfl, rfl, fun key h => by
    simp [Args.get?_cons, h]⟩
  have hshown : (ofVerb .concatenate [(.path, .text path)] none).outcome (s.noted [record])
      = (.ok (.ok content), s.noted [record]) :=
    outcome_withInput_named hn (hr.noted [record]) rfl _ _
  refine ⟨record, ?_⟩
  rw [runStage, hrun, if_neg (by simpa using hknown), if_neg (by simpa using hallowed),
    show (if Verb.concatenate.isPipeAware then (none : Option Text) else none) = none from rfl,
    Handlers.runCommand_ok hshown]
  rfl

theorem runStage_concatenate (hr : s.Reads path content)
    (hknown : s.shell.commands.contains .concatenate = true)
    (hallowed : s.shell.allows .concatenate = true) (hlimit : s.shell.maxOutput = none) :
    ∃ record, runStage ⟨.concatenate, [(.path, .text path)]⟩ none s
      = (.ok content, s.noted [record]) := by
  obtain ⟨record, hrun⟩ := runStage_concatenate_limited hr hknown hallowed
  exact ⟨record, by rw [hrun, hlimit, limitOutput]⟩

theorem agree_runStage (hv : v ∈ Verb.viewing) (hn : direct.Names rest path)
    (hr : s.Reads path content)
    (hpaths : v = .sort ∨ v = .deduplicate ∨ v = .wordCount → direct.get? .paths = none)
    (hshell : t.shell = s.shell) (hlimit : s.shell.maxOutput = none) :
    Result.Agree v path content (runStage ⟨v, direct⟩ none s).1
      (runStage ⟨v, rest⟩ (some content) t).1 := by
  obtain ⟨record, hdirect⟩ := Handlers.runStage_eq ⟨v, direct⟩ none
  obtain ⟨record', hpiped⟩ := Handlers.runStage_eq ⟨v, rest⟩ (some content)
  have haware : v.isPipeAware = true := by
    simp only [Verb.viewing, List.mem_cons, List.not_mem_nil, or_false] at hv
    rcases hv with rfl | rfl | rfl | rfl | rfl | rfl <;> rfl
  rw [runStage, hdirect, hpiped, hshell]
  by_cases hknown : (!s.shell.commands.contains v) = true
  · rw [if_pos hknown, if_pos hknown]
    exact Result.agree_fail _
  rw [if_neg hknown, if_neg hknown]
  by_cases hallowed : (!s.shell.allows v) = true
  · rw [if_pos hallowed, if_pos hallowed]
    exact Result.agree_fail _
  rw [if_neg hallowed, if_neg hallowed, if_pos haware, if_pos haware]
  have htried := tried_ofVerb (t := t.noted [record']) hv hn (hr.noted [record]) hpaths
  rw [Handlers.fst_runCommand, Handlers.fst_runCommand]
  generalize ((ofVerb v direct none).outcome (s.noted [record])).1 = tried at htried ⊢
  generalize ((ofVerb v rest (some content)).outcome (t.noted [record'])).1 = tried' at htried ⊢
  cases htried with
  | answered h => simpa [ShellState.noted, hshell, hlimit, limitOutput] using h
  | failed f => exact Result.agree_fail _

/-- A verb that views a text answers on a file as on the text that `cat` pipes into it: a count
names the file, a search numbers its lines, and otherwise, failures included, the two answers are
equal. -/
theorem agree_direct_piped (hv : v ∈ Verb.viewing) (hargs : Args.parse v tokens = .ok args)
    (hr : s.Reads path content) (hknown : s.shell.commands.contains .concatenate = true)
    (hallowed : s.shell.allows .concatenate = true) (hlimit : s.shell.maxOutput = none) :
    Result.Agree v path content
      (execute (pipe [⟨v, args.set .path (.text path)⟩]) s).1
      (execute (pipe [⟨.concatenate, [(.path, .text path)]⟩, ⟨v, args.without .path⟩]) s).1 := by
  have hn := args.names_set path
  have hpaths : v = .sort ∨ v = .deduplicate ∨ v = .wordCount →
      (args.set .path (.text path)).get? .paths = none := fun h => by
    rw [Args.get?_set_of_ne (by decide), Args.get?_paths_of_parse h hargs]
  obtain ⟨record, hcat⟩ := runStage_concatenate hr hknown hallowed hlimit
  rw [execute_pipe, execute_pipe, Handlers.runStages_passed hcat rfl,
    Handlers.fst_runStages_single, Handlers.fst_runStages_single]
  exact agree_runStage hv hn hr hpaths rfl hlimit

/-- The line of the file `a` has its number, and no number after a pipe. -/
theorem agree_searched_single :
    Result.Agree .search ['a'] ['x']
        (execute (pipe [⟨.search, [(.pattern, .text ['X']), (.path, .text ['a'])]⟩]) singleState).1
        (execute (pipe [⟨.concatenate, [(.path, .text ['a'])]⟩,
          ⟨.search, [(.pattern, .text ['X'])]⟩]) singleState).1
      ∧ (execute (pipe [⟨.search, [(.pattern, .text ['X']), (.path, .text ['a'])]⟩])
          singleState).1 = .ok "1:x" :=
  ⟨@agree_direct_piped singleState .search [(.pattern, .text ['X']), (.path, .text ['a'])]
    ["X", "a"] ['a'] ['x'] (by decide) rfl rfl rfl rfl rfl, rfl⟩

/-! ## Lines between stages -/

/-- Any lines may be what a stage hands to the next one, and that one finds the same lines exactly
when the last of them is not blank. -/
theorem lines_recovered_iff {ls : List Text} (hls : ∀ line ∈ ls, '\n' ∉ line) :
    (∃ content, ∀ s, (ofVerb .head [(.lines, .number ls.length)] (some content)).outcome s
        = (.ok (.ok (Text.joinLines ls)), s))
      ∧ (Text.lines (Text.joinLines ls) = ls ↔ ls.getLast? ≠ some []) := by
  -- With blank lines behind them, none of the lines is lost when the text is cut.
  refine ⟨⟨Text.joinLines (ls ++ [[], []]), fun s => ?_⟩, ?_⟩
  · have hshown : window false (lineCount (some (.number ls.length)))
        (Text.lines (Text.joinLines (ls ++ [[], []]))) = ls := by
      cases ls with
      | nil => rfl
      | cons line ls =>
          have hcount : lineCount (some (.number (line :: ls).length)) = (line :: ls).length := by
            simp [lineCount]
          rw [window, if_neg (by simp), hcount, Text.lines_joinLines_ended hls]
    exact congrArg (fun shown => ((.ok (.ok (Text.joinLines shown)) : Except Failure Result), s))
      hshown
  · constructor
    · intro hsame hlast
      obtain ⟨front, rfl⟩ := List.getLast?_eq_some_iff.mp hlast
      rw [Text.lines_joinLines_blank fun line h => hls line (by simp [h])] at hsame
      split at hsame
      · simp at hsame
      · simpa using congrArg List.length hsame
    · exact Text.lines_joinLines_of_last hls

/-- A blank line between two others is handed on. -/
theorem recovered_blank_between :
    (∃ content, ∀ s, (ofVerb .head [(.lines, .number 3)] (some content)).outcome s
        = (.ok (.ok ['a', '\n', '\n', 'b']), s))
      ∧ Text.lines ['a', '\n', '\n', 'b'] = [['a'], [], ['b']] := by
  have h := @lines_recovered_iff [['a'], [], ['b']] (by decide)
  exact ⟨h.1, h.2.mpr (by decide)⟩

/-- The blank line at the end of what `head` hands on is lost: `uniq` counts one line of the two. -/
theorem blank_line_lost :
    window false 2 (Text.lines ['a', '\n', '\n', 'b', '\n']) = [['a'], []]
      ∧ Text.lines (Text.joinLines [['a'], []]) = [['a']]
      ∧ (execute (pipe [⟨.head, [(.path, .text ['f']), (.lines, .number 2)]⟩,
            ⟨.deduplicate, [(.count, .flag true)]⟩])
          ⟨{}, .ofMemory { tree := .file ['f'] ['a', '\n', '\n', 'b', '\n'] .empty, quota := 10 }
            {} {}⟩).1 = .ok "      1 a" :=
  ⟨by decide, by decide, rfl⟩

end Shell

end PipeShell
