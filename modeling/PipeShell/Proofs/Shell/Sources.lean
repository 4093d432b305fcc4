import PipeShell.Proofs.Args.SearchUnits
import PipeShell.Proofs.Pipeline.Joined
import PipeShell.Proofs.Shell.Answers

/-!
# Sources of first stages

Nothing is piped into a first stage, so a verb that must read something needs a file there. Reading
a line refuses the stages that would lack one when they run, and no others.
-/

namespace PipeShell

open PipeShell.Action

/-! ## Records that name a file -/

namespace Args

variable {args : Args} {tokens : List Text}

/-- The record names a file, or a list of files. -/
def NamesFile (args : Args) : Prop :=
  args.has .path = true ∨ args.has .paths = true

theorem sourcePaths_pathOrPaths (h : (pathOrPaths tokens).NamesFile) :
    (pathOrPaths tokens).sourcePaths ≠ [] := by
  revert h
  rcases hoperands : operands tokens with _ | ⟨path, _ | ⟨next, rest⟩⟩
  · simp [pathOrPaths, hoperands, NamesFile, has]
  · simp only [pathOrPaths, hoperands]
    exact fun _ => List.cons_ne_nil path []
  · simp only [pathOrPaths, hoperands]
    exact fun _ => List.cons_ne_nil path (next :: rest)

theorem text?_path_read (hargs : parse .read tokens = .ok args) (h : args.NamesFile) :
    ∃ path, args.text? .path = some path := by
  obtain rfl : fill [.path] (operands tokens) (mark [] tokens) = args := Except.ok.inj hargs
  have hempty (key : Key) : (mark [] tokens).get? key = none := get?_mark List.not_mem_nil tokens
  have hpath : (fill [.path] (operands tokens) (mark [] tokens)).get? .path
      = (operands tokens).head?.map Value.text := by
    rw [get?_fill_self List.not_mem_nil, hempty, Option.or_none]
  have hpaths : (fill [.path] (operands tokens) (mark [] tokens)).has .paths = false := by
    rw [has, get?_fill (by decide), hempty]
    rfl
  have hsome := h.resolve_right (by simp [hpaths])
  rw [has, hpath, Option.isSome_map] at hsome
  obtain ⟨path, hfirst⟩ := Option.isSome_iff_exists.mp hsome
  exact ⟨path, by rw [text?, hpath, hfirst]; rfl⟩

open SearchUnit in
/-- A search that names a file has a pattern: a flag gives it, or it is the operand before the
file. -/
theorem text?_search (h : (search tokens).NamesFile) :
    ∃ source path, (search tokens).text? .pattern = some source
      ∧ (search tokens).text? .path = some path := by
  obtain ⟨us, hus⟩ := exists_search_write tokens
  rw [hus] at h ⊢
  have hpaths : (search (write us)).has .paths = false := by
    rw [has, get?_search (by decide) (by decide), if_neg (not_switched (by decide))]
    rfl
  have hsome := h.resolve_right (by simp [hpaths])
  rw [has, get?_path_search, Option.isSome_map] at hsome
  obtain ⟨path, hpath⟩ := Option.isSome_iff_exists.mp hsome
  -- Without a pattern behind a flag, the path is the second operand, so there is a first one.
  obtain ⟨source, hsource⟩ :
      ∃ source, (patternsOf us).getLast?.or (operandsOf us).head? = some source := by
    by_cases hnone : patternsOf us = []
    · rw [if_pos hnone] at hpath
      obtain ⟨source, rest, hrest⟩ : ∃ source rest, operandsOf us = source :: rest :=
        List.exists_cons_of_ne_nil fun hnil => by simp [hnil] at hpath
      exact ⟨source, by simp [hnone, hrest]⟩
    · exact ⟨(patternsOf us).getLast hnone, by simp [List.getLast?_eq_some_getLast hnone]⟩
  exact ⟨source, path, by rw [text?, get?_pattern_search, hsource]; rfl,
    by rw [text?, get?_path_search, hpath]; rfl⟩

end Args

/-! ## Running on a named file -/

namespace Command

variable {v : Verb} {args : Args} {tokens : List Text} {source path content form : Text}
  {s : ShellState}

theorem ok_ne_usage : Result.ok content ≠ usage form :=
  fun h => nomatch congrArg Result.error h

/-- The verbs that must name a file in a first stage. -/
def sourced : List Verb :=
  [.concatenate, .search, .read]

theorem concatenate_ne_usage (h : args.sourcePaths ≠ []) (s : ShellState) (form : Text) :
    ((concatenate args none).outcome s).1 ≠ .ok (usage form) := by
  rw [concatenate, outcome_withInput]
  simp only [ShellState.inputText, h, if_false]
  cases args.sourcePaths.mapM s.readAt with
  | error f => simp [Except.map]
  | ok ts => exact fun hresult => ok_ne_usage (Except.ok.inj hresult)

/-- A reading that is shown is no usage, and neither is one that fails. -/
theorem shown_ne_usage (path : Text) (shown : Text → Text) (s : ShellState) (form : Text) :
    ((resolve (some path) >>= fun place => liftM (Store.read place) >>= fun content =>
      pure (Result.ok (shown content)) : Command).outcome s).1 ≠ .ok (usage form) := by
  rw [← bind_assoc, outcome_bind, outcome_read_resolved]
  cases s.readAt path with
  | error f => simp
  | ok content => exact fun hresult => ok_ne_usage (Except.ok.inj hresult)

theorem read_ne_usage (h : args.text? .path = some path) (s : ShellState) (form : Text) :
    ((read args).outcome s).1 ≠ .ok (usage form) := by
  simp only [read, h]
  exact shown_ne_usage path id s form

theorem search_ne_usage (hpattern : args.text? .pattern = some source)
    (hpath : args.text? .path = some path) (s : ShellState) (form : Text) :
    ((search args none).outcome s).1 ≠ .ok (usage form) := by
  simp only [search, hpattern, hpath]
  cases Pattern.read source with
  | error e =>
      cases e with
      | failure f => simp
      | malformed wording position =>
          intro hresult
          have herror := congrArg Result.error (Except.ok.inj hresult)
          simp [usage, Result.fail] at herror
  | ok found => exact shown_ne_usage path _ s form

/-- A verb whose arguments name a file does not answer with its usage when nothing is piped. -/
theorem ofVerb_ne_usage (hv : v ∈ sourced) (hargs : Args.parse v tokens = .ok args)
    (hfile : args.NamesFile) (s : ShellState) (form : Text) :
    ((ofVerb v args none).outcome s).1 ≠ .ok (usage form) := by
  simp only [sourced, List.mem_cons, List.not_mem_nil, or_false] at hv
  rcases hv with rfl | rfl | rfl
  · obtain rfl := Except.ok.inj hargs
    exact concatenate_ne_usage (Args.sourcePaths_pathOrPaths hfile) s form
  · obtain rfl := Except.ok.inj hargs
    obtain ⟨source, path, hpattern, hpath⟩ := Args.text?_search hfile
    exact search_ne_usage hpattern hpath s form
  · obtain ⟨path, hpath⟩ := Args.text?_path_read hargs hfile
    exact read_ne_usage hpath s form

end Command

/-! ## Lines -/

/-- What a line can be to its reader: no command, a command that is refused, or stages to run. -/
inductive LineKind
  | other
  | refused
  | runnable

/-- A line of this kind is read as such a pipeline. -/
def LineKind.Of : LineKind → Pipeline → Prop
  | other, p => p.isPipeline = false ∧ p.error = none ∧ p.stages = []
  | refused, p => p.isPipeline = true ∧ (∃ error, p.error = some error) ∧ p.stages = []
  | runnable, p => p.isRunnable = true ∧ p.error = none ∧ p.stages ≠ []

theorem LineKind.Of.unique {kind kind' : LineKind} {p : Pipeline} (h : kind.Of p)
    (h' : kind'.Of p) : kind = kind' := by
  cases kind <;> cases kind' <;> simp_all [LineKind.Of, Pipeline.isRunnable]

namespace Pipeline

open Command (sourced usage ofVerb)

variable {line segment : Text} {stage first : Stage} {rest : List Stage} {p : Pipeline}

theorem requiresSource_iff {v : Verb} : requiresSource v = true ↔ v ∈ sourced := by
  cases v <;> decide

def lacksFile (v : Verb) : Pipeline where
  isPipeline := true
  error := some ("First command (" ++ v.word ++ ") requires a file path")

theorem ofStages_of_lacks (hv : first.verb ∈ sourced) (h : ¬first.args.NamesFile)
    (rest : List Stage) : ofStages (first :: rest) = lacksFile first.verb := by
  obtain ⟨hpath, hpaths⟩ := not_or.mp h
  have hrequires := requiresSource_iff.mpr hv
  rw [ofStages, if_pos (by simp [hrequires, hpath, hpaths])]
  rfl

theorem exists_kind_ofStages (stages : List Stage) :
    ∃ kind, LineKind.Of kind (ofStages stages) := by
  cases stages with
  | nil => exact ⟨.other, rfl, rfl, rfl⟩
  | cons first rest =>
      rw [ofStages]
      split
      · exact ⟨.refused, rfl, ⟨_, rfl⟩, rfl⟩
      · exact ⟨.runnable, rfl, rfl, List.cons_ne_nil _ _⟩

theorem exists_kind (h : read line = .ok p) : ∃ kind, LineKind.Of kind p := by
  rw [read_eq] at h
  split at h
  · cases hread : readStages (filledSegments line) with
    | error f => simp [hread, Except.map] at h
    | ok r =>
        obtain rfl : ofRead r = p := by simpa [hread, Except.map] using h
        cases r with
        | error bad => exact ⟨.refused, rfl, ⟨_, rfl⟩, rfl⟩
        | ok stages => exact exists_kind_ofStages stages
  · obtain rfl : {} = p := Except.ok.inj h
    exact ⟨.other, rfl, rfl, rfl⟩

theorem exists_parse_of_reads (h : Reads segment stage) :
    ∃ tokens, Args.parse stage.verb tokens = .ok stage.args := by
  rw [Reads, readStage?] at h
  split at h
  · cases h
  · rename_i name tokens _
    cases hverb : Verb.resolve? name with
    | none => simp [hverb] at h
    | some verb =>
        cases hparse : Args.parse verb tokens with
        | error f => simp [hverb, hparse] at h
        | ok args =>
            obtain rfl : ⟨verb, args⟩ = stage := by simpa [hverb, hparse] using h
            exact ⟨tokens, hparse⟩

theorem namesFile_of_runnable (h : (ofStages (first :: rest)).isRunnable = true)
    (hv : first.verb ∈ sourced) : first.args.NamesFile := by
  by_contra hlacks
  rw [ofStages_of_lacks hv hlacks] at h
  exact absurd h (by simp [lacksFile, isRunnable])

/-- The check for a file when a line is read is enough for its run. A line that can be read is no
command, or it is refused, or it has stages to run, and only one of these. When it runs, no first
stage that must read something answers with its usage, whatever the store and the working directory
are. And where a first stage would do so in some session, reading the line has refused it, because
it lacks a file. -/
theorem read_checks_source (line : Text) :
    (∀ p, read line = .ok p → ∃! kind : LineKind, kind.Of p)
      ∧ (∀ p first rest, read line = .ok p → p.isRunnable = true → p.stages = first :: rest →
        first.verb ∈ sourced → ∀ s form, ((ofVerb first.verb first.args none).outcome s).1
          ≠ .ok (usage form))
      ∧ ∀ first rest, looksLikePipeline line = true →
        List.Forall₂ Reads (commandSegments line) (first :: rest) → first.verb ∈ sourced →
        (∃ s form, ((ofVerb first.verb first.args none).outcome s).1 = .ok (usage form)) →
          read line = .ok (lacksFile first.verb) := by
  refine ⟨fun p h => ?_, fun p first rest h hrun hstages hv s form => ?_,
    fun first rest hlooks hreads hv husage => ?_⟩
  · obtain ⟨kind, hkind⟩ := exists_kind h
    exact ⟨kind, hkind, fun found hfound => hfound.unique hkind⟩
  · obtain ⟨-, hreads, hfirst⟩ := reads_of_runnable h hrun
    rw [hstages] at hreads hfirst
    obtain ⟨segment, segments, hsegment, -, -⟩ := List.forall₂_cons_right_iff.mp hreads
    obtain ⟨tokens, htokens⟩ := exists_parse_of_reads hsegment
    exact Command.ofVerb_ne_usage hv htokens (namesFile_of_runnable hfirst hv) s form
  · obtain ⟨s, form, husage⟩ := husage
    obtain ⟨segment, segments, hsegment, -, -⟩ := List.forall₂_cons_right_iff.mp hreads
    obtain ⟨tokens, htokens⟩ := exists_parse_of_reads hsegment
    have hlacks : ¬first.args.NamesFile := fun hfile =>
      Command.ofVerb_ne_usage hv htokens hfile s form husage
    rw [read, if_pos hlooks, readStages_of_reads hreads]
    exact congrArg Except.ok (ofStages_of_lacks hv hlacks rest)

/-- A search whose only operand is its pattern is refused when it is read, and one with a pattern
behind a flag and a file runs. -/
theorem read_checks_source_search :
    read "grep -i x | wc" = .ok (lacksFile .search)
      ∧ ∀ s form, ((ofVerb .search [(.pattern, .text "-v"), (.path, .text "x")] none).outcome s).1
        ≠ .ok (usage form) := by
  obtain ⟨-, hrun, -⟩ := read_checks_source "find x -e -v"
  obtain ⟨-, -, hrefused⟩ := read_checks_source "grep -i x | wc"
  have hread : read "find x -e -v" = .ok
      { stages := [⟨.search, [(.pattern, .text "-v"), (.path, .text "x")]⟩]
        isPipeline := true } := rfl
  refine ⟨hrefused ⟨.search, [(.caseInsensitive, .flag true), (.pattern, .text "x")]⟩
    [⟨.wordCount, []⟩] rfl (.cons rfl (.cons rfl .nil)) (by decide) ?_,
    hrun _ _ _ hread rfl rfl (by decide)⟩
  exact ⟨Shell.singleState, _, rfl⟩

end Pipeline

end PipeShell
