import PipeShell.Proofs.Shell.Sorted

/-!
# Sorting and dropping duplicates

`sort | uniq` answers like `sort -u` in every locale that tells lines apart. Between the two stages
only a blank line at the end can get lost, and in ascending order it is the last of blank lines only.
-/

namespace PipeShell

open PipeShell.Action

/-- The collation tells every two texts apart, and puts the empty one before all others. The order by
code points does, and every order of all texts in which a front comes before the whole. -/
structure Collation.Separates (collate : Collation) : Prop where
  injective : Function.Injective collate
  blank_first : ∀ t, t ≠ [] → collate [] < collate t

theorem Collation.separates_id : Collation.Separates id where
  injective := Function.injective_id
  blank_first
    | [], h => absurd rfl h
    | c :: t, _ => List.nil_lt_cons c t

/-! ## Runs between stages -/

section Runs

variable {κ μ : Type} [DecidableEq κ] [DecidableEq μ] {collate : Collation} {ls : List Text}

@[simp] theorem runHeads_nil (key : Text → κ) : runHeads key [] = [] := rfl

theorem runHeads_congr {key : Text → κ} {other : Text → μ}
    (h : ∀ a b, key a = key b ↔ other a = other b) (ls : List Text) :
    runHeads key ls = runHeads other ls := by
  simp only [runHeads, lineRuns, h]

/-- Of blank lines one is left, which joined lines do not show. -/
theorem joinLines_runHeads_blank {key : Text → κ} (h : ∀ line ∈ ls, line = []) :
    Text.joinLines (runHeads key ls) = [] := by
  cases ls with
  | nil => rfl
  | cons line ls =>
      obtain ⟨rfl, hls⟩ := List.forall_mem_cons.mp h
      have hrest : ls.dropWhile (key · = key []) = [] :=
        List.dropWhile_eq_nil_iff.mpr fun a ha => by simp [hls a ha]
      rw [runHeads_cons, hrest]
      rfl

theorem blank_of_getLast? (hc : collate.Separates)
    (h : ls.Pairwise fun a b => collate a ≤ collate b) (hlast : ls.getLast? = some []) :
    ∀ line ∈ ls, line = [] := by
  obtain ⟨front, rfl⟩ := List.getLast?_eq_some_iff.mp hlast
  intro line hline
  rcases List.mem_append.mp hline with hline | hline
  · have hle := (List.pairwise_append.mp h).2.2 line hline [] (by simp)
    exact not_imp_comm.mp (hc.blank_first line) (not_lt.mpr hle)
  · simpa using hline

/-- Ascending lines that are joined and cut again have the same lines without duplicates, as far as
joining shows them. -/
theorem joinLines_runHeads_lines (hc : collate.Separates) (hls : ∀ line ∈ ls, '\n' ∉ line)
    (h : ls.Pairwise fun a b => collate a ≤ collate b) (key : Text → κ) :
    Text.joinLines (runHeads key (Text.lines (Text.joinLines ls)))
      = Text.joinLines (runHeads key ls) := by
  -- Only a blank last line does not come back, and then all lines are blank.
  by_cases hlast : ls.getLast? = some []
  · have hblank := blank_of_getLast? hc h hlast
    have hcut : ∀ line ∈ Text.lines (Text.joinLines ls), line = [] := by
      rw [Text.lines_joinLines hls, if_pos hlast]
      split
      · simp
      · exact fun line hline => hblank line (List.dropLast_subset ls hline)
    rw [joinLines_runHeads_blank hcut, joinLines_runHeads_blank hblank]
  · rw [Text.lines_joinLines_of_last hls hlast]

end Runs

/-! ## Sorts without other flags -/

/-- The two records have no flag of a sort, except that the second one drops duplicates. -/
structure Args.AddsUnique (args once : Args) : Prop where
  numeric : args.holds .numeric = false ∧ once.holds .numeric = false
  ignoreCase : args.holds .ignoreCase = false ∧ once.holds .ignoreCase = false
  reverse : args.holds .reverse = false ∧ once.holds .reverse = false
  unique : args.holds .unique = false ∧ once.holds .unique = true

namespace Args.AddsUnique

variable {collate : Collation} {args once : Args} (h : args.AddsUnique once)
include h

theorem sortedLines_eq (ls : List Text) :
    Command.sortedLines collate args ls
      = sortLines (LineKey.ofLine collate false false) false ls := by
  simp [Command.sortedLines, lineKey, h.numeric, h.ignoreCase, h.reverse, h.unique]

theorem sortedLines_once (hcollate : Function.Injective collate) (ls : List Text) :
    Command.sortedLines collate once ls = runHeads id (Command.sortedLines collate args ls) := by
  have hkey : ∀ a b, LineKey.ofLine collate false false a = LineKey.ofLine collate false false b
      ↔ id a = id b := by
    simp [LineKey.ofLine, hcollate.eq_iff]
  rw [h.sortedLines_eq, ← runHeads_congr hkey]
  simp [Command.sortedLines, lineKey, h.numeric, h.ignoreCase, h.reverse, h.unique]

theorem pairwise_sortedLines (ls : List Text) :
    (Command.sortedLines collate args ls).Pairwise fun a b => collate a ≤ collate b := by
  rw [h.sortedLines_eq]
  refine (stablySorted_sortLines _ _ ls).ordered.imp fun {a b} hab => not_lt.mp fun hba => hab ?_
  exact Prod.Lex.toLex_lt_toLex.mpr (.inr ⟨rfl, hba⟩)

end Args.AddsUnique

namespace Args

variable {p : Text}

theorem lookup_sort_operand (hp : isFlag p = false) : (flagTable .sort).lookup p = none := by
  refine List.lookup_eq_none_iff.mpr fun entry hentry => ?_
  have hflag : isFlag entry.1 = true := by
    have hall : ∀ entry ∈ flagTable .sort, isFlag entry.1 = true := by decide
    exact hall entry hentry
  rw [bne_iff_ne]
  rintro rfl
  simp [hp] at hflag

theorem sourcePaths_mark (tokens : List Text) :
    (mark (flagTable .sort) tokens).sourcePaths = [] := by
  have hpath : (mark (flagTable .sort) tokens).get? .path = none := get?_mark (by decide) tokens
  have hpaths : (mark (flagTable .sort) tokens).get? .paths = none := get?_mark (by decide) tokens
  simp [sourcePaths, texts?, text?, hpath, hpaths]

theorem addsUnique_path : AddsUnique [(.path, .text p)] [(.unique, .flag true), (.path, .text p)] :=
  ⟨⟨rfl, rfl⟩, ⟨rfl, rfl⟩, ⟨rfl, rfl⟩, ⟨rfl, rfl⟩⟩

/-- A sort of a path and one without duplicates read the same. A flag in the place of the path is
none, and then they read nothing. -/
theorem parse_sort_path (p : Text) :
    ∃ args once, parse .sort [p] = .ok args ∧ parse .sort ["-u", p] = .ok once
      ∧ once.sourcePaths = args.sourcePaths
      ∧ (args.sourcePaths = [] ∨ args.AddsUnique once) := by
  refine ⟨_, _, rfl, rfl, ?_⟩
  by_cases hp : isFlag p = true
  · have hnone : operands [p] = [] := by simp [operands, hp]
    have hnone' : operands ["-u", p] = [] := by
      rw [operands, List.filter_cons_of_neg (by decide)]
      exact hnone
    simp only [flagsAndSlots, hnone, hnone', slots, fill, sourcePaths_mark, true_or, and_self]
  · have hp : isFlag p = false := by simpa using hp
    have hnone := lookup_sort_operand hp
    have hsingle : operands [p] = [p] := by simp [operands, hp]
    have hboth : operands ["-u", p] = [p] := by
      rw [operands, List.filter_cons_of_neg (by decide)]
      exact hsingle
    have hargs : flagsAndSlots (flagTable .sort) (slots .sort) [p] = [(.path, .text p)] := by
      simp only [flagsAndSlots, hsingle, mark, List.foldl_cons, List.foldl_nil, hnone]
      rfl
    have honce : flagsAndSlots (flagTable .sort) (slots .sort) ["-u", p]
        = [(.unique, .flag true), (.path, .text p)] := by
      simp only [flagsAndSlots, hboth, mark, List.foldl_cons, List.foldl_nil, hnone]
      rfl
    rw [hargs, honce]
    exact ⟨rfl, .inr addsUnique_path⟩

end Args

namespace Command

variable {args once : Args}

theorem outcome_deduplicate (content : Text) (s : ShellState) :
    (deduplicate [] (some content)).outcome s
      = (.ok (.ok (Text.joinLines (runHeads id (Text.lines content)))), s) := by
  have hheads : (lineRuns id (Text.lines content)).map (runLine false)
      = runHeads id (Text.lines content) := by
    rw [runHeads, ← List.filterMap_eq_map]
    refine List.filterMap_congr fun run hrun => ?_
    obtain ⟨line, rest, rfl⟩ := List.exists_cons_of_ne_nil (List.ne_nil_of_mem_splitBy hrun)
    rfl
  rw [← hheads, deduplicate, outcome_withInput_piped]
  simp [Args.holds, lineRuns]

/-- What is left of a sorted text without duplicates is what a sort without duplicates shows. -/
theorem sortInput_once {collate : Collation} (hc : collate.Separates) (h : args.AddsUnique once)
    (text : Text) :
    (∃ sorted, sortInput collate args (some text) = .ok (.ok sorted)
      ∧ sortInput collate once (some text)
        = .ok (.ok (Text.joinLines (runHeads id (Text.lines sorted)))))
    ∨ ∃ f, sortInput collate args (some text) = .error f
      ∧ sortInput collate once (some text) = .error f := by
  simp only [sortInput]
  split
  · exact .inr ⟨_, rfl, rfl⟩
  · refine .inl ⟨_, rfl, ?_⟩
    have hlines : ∀ line ∈ sortedLines collate args (Text.lines text), '\n' ∉ line := by
      rw [h.sortedLines_eq]
      intro line hline
      have hsorted :=
        stablySorted_sortLines (LineKey.ofLine collate false false) false (Text.lines text)
      exact Text.newline_not_mem_lines (hsorted.perm.mem_iff.mp hline)
    rw [joinLines_runHeads_lines hc hlines (h.pairwise_sortedLines _),
      h.sortedLines_once hc.injective]

section Needed

variable {collate : Collation} (h : args.AddsUnique once)
  (hagree : ∀ content sorted, sortInput collate args (some content) = .ok (.ok sorted) →
    sortInput collate once (some content)
      = .ok (.ok (Text.joinLines (runHeads id (Text.lines sorted)))))
include h hagree

/-- Where `sort -u` always shows what is left of the sorted text, it does so for two lines. -/
theorem joinLines_runHeads_of_agree {a b : Text} (ha : '\n' ∉ a ∧ '\x00' ∉ a)
    (hb : '\n' ∉ b ∧ '\x00' ∉ b) (hle : collate a ≤ collate b) :
    Text.joinLines (runHeads (LineKey.ofLine collate false false) [a, b])
      = Text.joinLines (runHeads id (Text.lines (Text.joinLines [a, b]))) := by
  have hlines : Text.lines (Text.joinLines ([a, b] ++ [[]])) = [a, b] := by
    rw [Text.lines_joinLines_blank (by simp [ha.1, hb.1]), if_neg (by simp)]
  have hnull : '\x00' ∉ Text.joinLines ([a, b] ++ [[]]) := by
    simp [Text.joinLines, Text.join, ha.2, hb.2]
  have hsorted : sortedLines collate args [a, b] = [a, b] := by
    rw [h.sortedLines_eq, sortLines_eq]
    refine List.mergeSort_of_pairwise ?_
    have hkey : ¬LineKey.ofLine collate false false b < LineKey.ofLine collate false false a :=
      not_lt.mpr (Prod.Lex.toLex_le_toLex.mpr (.inr ⟨rfl, hle⟩))
    simpa [LineKey.Before] using hkey
  have honce : sortedLines collate once [a, b]
      = runHeads (LineKey.ofLine collate false false) (sortedLines collate args [a, b]) := by
    rw [h.sortedLines_eq]
    simp [sortedLines, Args.lineKey, h.numeric, h.ignoreCase, h.reverse, h.unique]
  have hshown := hagree (Text.joinLines ([a, b] ++ [[]])) _ (sortInput_of_not_mem hnull)
  rw [sortInput_of_not_mem hnull, hlines, honce, hsorted] at hshown
  simpa [Result.ok] using hshown

/-- The locale has to tell lines apart, and to put the blank line first. -/
theorem separates_of_agree {a b : Text} (ha : '\n' ∉ a ∧ '\x00' ∉ a)
    (hb : '\n' ∉ b ∧ '\x00' ∉ b) (hne : a ≠ b) :
    collate a ≠ collate b ∧ (a = [] → collate a < collate b) := by
  -- Of two lines with one key, the second one is lost by one answer only, unless it is blank.
  have htie {a b : Text} (ha : '\n' ∉ a ∧ '\x00' ∉ a) (hb : '\n' ∉ b ∧ '\x00' ∉ b) (hne : a ≠ b)
      (hblank : b ≠ []) : collate a ≠ collate b := fun hkey => by
    have hpair := joinLines_runHeads_of_agree h hagree ha hb hkey.le
    have hlast : [a, b].getLast? ≠ some [] := by simpa using hblank
    rw [Text.lines_joinLines_of_last (by simp [ha.1, hb.1]) hlast] at hpair
    have hfirst : runHeads (LineKey.ofLine collate false false) [a, b] = [a] := by
      simp [runHeads_cons, LineKey.ofLine, hkey]
    have hboth : runHeads id [a, b] = [a, b] := by
      simp [runHeads_cons, hne.symm]
    rw [hfirst, hboth] at hpair
    simpa [Text.joinLines, Text.join] using congrArg List.length hpair
  have hkey : collate a ≠ collate b := by
    by_cases hblank : b = []
    · exact (htie hb ha hne.symm (hblank ▸ hne)).symm
    · exact htie ha hb hne hblank
  refine ⟨hkey, ?_⟩
  rintro rfl
  refine lt_of_le_of_ne (not_lt.mp fun hlt => ?_) hkey
  -- A blank line behind another one is lost between the two stages.
  have hpair := joinLines_runHeads_of_agree h hagree hb ha hlt.le
  have hlines : Text.lines (Text.joinLines ([b] ++ [[]])) = [b] := by
    rw [Text.lines_joinLines_blank (by simp [hb.1]), if_neg (by simpa using hne.symm)]
  have hboth : runHeads (LineKey.ofLine collate false false) [b, []] = [b, []] := by
    simp [runHeads_cons, LineKey.ofLine, hkey]
  have hfirst : runHeads id [b] = [b] := by
    simp [runHeads_cons]
  rw [List.singleton_append] at hlines
  rw [hboth, hlines, hfirst] at hpair
  simpa [Text.joinLines, Text.join] using congrArg List.length hpair

end Needed

end Command

/-! ## The two stages and the one -/

namespace Handlers

open Command

variable {collate : Collation} {s : ShellState} {args once : Args} {before : Option Text}

/-- The locale matters to sorting only. -/
theorem runStage_inLocale {stage : Stage} (h : stage.verb ≠ .sort) :
    (inLocale collate).runStage stage before s = Shell.runStage stage before s := by
  have hverb : inLocale collate stage.verb = ofVerb stage.verb := by
    funext args piped
    unfold inLocale
    split
    · rename_i hsort
      exact absurd hsort h
    · rfl
  simp only [Shell.runStage, runStage, runCommand, hverb]

theorem fst_runStage_sort (hrun : s.shell.CanRun .sort) (hlimit : s.shell.maxOutput = none)
    (args : Args) (before : Option Text) :
    ((inLocale collate).runStage ⟨.sort, args⟩ before s).1
      = .ofAttempt .sort (s.inputText args before >>= sortInput collate args) := by
  have haware : Verb.sort.isPipeAware = true := rfl
  refine fst_runStage hrun hlimit fun records => ?_
  rw [if_pos haware, inLocale, outcome_sort, ShellState.inputText_noted]

/-- Sorting changes nothing of a shell. -/
theorem shell_runStage_sort (args : Args) (before : Option Text) (s : ShellState) :
    ((inLocale collate).runStage ⟨.sort, args⟩ before s).2.shell = s.shell := by
  obtain ⟨record, hstage⟩ := runStage_eq ⟨.sort, args⟩ before
  rw [hstage]
  split
  · rfl
  · split
    · rfl
    · have hsort := outcome_sort collate args (if Verb.sort.isPipeAware then before else none)
        (s.noted [record])
      generalize ((s.noted [record]).inputText args
        (if Verb.sort.isPipeAware then before else none) >>= sortInput collate args) = tried at hsort
      cases tried with
      | ok r => rw [runCommand_ok hsort]; rfl
      | error f => rw [runCommand_error hsort]; split <;> rfl

theorem fst_runStage_deduplicate (hrun : s.shell.CanRun .deduplicate)
    (hlimit : s.shell.maxOutput = none) (content : Text) :
    ((inLocale collate).runStage ⟨.deduplicate, []⟩ (some content) s).1
      = .ok (Text.joinLines (runHeads id (Text.lines content))) := by
  have haware : Verb.deduplicate.isPipeAware = true := rfl
  change _ = Result.ofAttempt .deduplicate
    (.ok (.ok (Text.joinLines (runHeads id (Text.lines content)))))
  refine fst_runStage hrun hlimit fun records => ?_
  rw [if_pos haware, inLocale, ofVerb, outcome_deduplicate]
  exact Verb.noConfusion

/-- On every input that the two sorts share, the one with `uniq` behind it and the one without
duplicates answer alike, also when there is no input or it cannot be sorted. -/
theorem fst_runStages_sort_deduplicate (hc : collate.Separates)
    (hrun : s.shell.CanRun .deduplicate) (hlimit : s.shell.maxOutput = none)
    (hinput : s.inputText once before = s.inputText args before)
    (h : s.inputText args before = .ok none ∨ args.AddsUnique once) (index : Nat) (last : Result) :
    ((inLocale collate).runStages index before last [⟨.sort, args⟩, ⟨.deduplicate, []⟩] s).1
      = ((inLocale collate).runStages index before last [⟨.sort, once⟩] s).1 := by
  rw [fst_runStages_pair, fst_runStages_single]
  by_cases hsort : s.shell.CanRun .sort
  · have hkept : ((inLocale collate).runStage ⟨.sort, args⟩ before s).2.shell = s.shell :=
      shell_runStage_sort args before s
    have hnext (content : Text) : ((inLocale collate).runStage ⟨.deduplicate, []⟩ (some content)
        ((inLocale collate).runStage ⟨.sort, args⟩ before s).2).1
        = .ok (Text.joinLines (runHeads id (Text.lines content))) :=
      fst_runStage_deduplicate (hkept.symm ▸ hrun) (hkept.symm ▸ hlimit) content
    rw [fst_runStage_sort hsort hlimit, fst_runStage_sort hsort hlimit, hinput]
    cases hread : s.inputText args before with
    | error f => rfl
    | ok input =>
        cases input with
        | none => rfl
        | some text =>
            have hflags := h.resolve_left (by simp [hread])
            rcases sortInput_once hc hflags text with ⟨sorted, hsorted, honce⟩ | ⟨f, hsorted, honce⟩
            · rw [Attempt.ok_bind, Attempt.ok_bind, hsorted, honce]
              exact (if_pos rfl).trans (hnext sorted)
            · rw [Attempt.ok_bind, Attempt.ok_bind, hsorted, honce]
              rfl
  · rw [fst_runStage_refused hsort, fst_runStage_refused hsort]
    rfl

end Handlers

namespace Shell

open Command

variable {collate : Collation} {s : ShellState}

/-- A file of blank lines only. -/
def blankLines : ShellState :=
  ⟨{}, .ofMemory { tree := .file ['f'] ['\n', '\n', '\n'] .empty, quota := 10 } {} {}⟩

end Shell

end PipeShell
