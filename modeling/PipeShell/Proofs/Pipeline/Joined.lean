import Mathlib.Data.List.Forall2
import PipeShell.Pipeline.Reader
import PipeShell.Proofs.Store.Action
import PipeShell.Proofs.Token.Cuts

/-!
# Lines that go on

How a command line is read when a pipe character and more text follow it: piece by piece, with the
stages of the further pieces behind those that were read.
-/

namespace PipeShell.Pipeline

variable {line rest : Text}

/-- The pieces of a text between its pipe characters, stripped and without the blank ones. -/
def filledSegments (t : Text) : List Text :=
  ((Token.segments t).map Text.strip).filter (· ≠ [])

theorem commandSegments_eq (line : Text) : commandSegments line = filledSegments line := by
  rw [commandSegments, Token.map_strip_segments_strip, filledSegments]

theorem filledSegments_append_pipe (h : Token.Closed line) (rest : Text) :
    filledSegments (line ++ '|' :: rest) = filledSegments line ++ filledSegments rest := by
  rw [filledSegments, Token.segments_append_pipe h, List.map_append, List.filter_append]
  rfl

/-! ## Command lines -/

/-- The first word before the first pipe character is the same with blanks around the line. -/
theorem firstWord_takeWhile_strip (line : Text) :
    Text.firstWord ((Text.strip line).takeWhile (· ≠ '|'))
      = Text.firstWord (line.takeWhile (· ≠ '|')) := by
  obtain ⟨before, after, hb, ha, hline⟩ := Text.exists_blanks_strip line
  have hplain {u : Text} (hu : ∀ c ∈ u, Text.isBlank c = true) :
      ∀ c ∈ u, decide (c ≠ '|') = true := fun c hc => by
    simpa using (Token.plain_of_isBlank (hu c hc)).2
  have hafter : after.takeWhile (· ≠ '|') = after := List.takeWhile_eq_self_iff.mpr (hplain ha)
  have hcut :
      line.takeWhile (· ≠ '|') = before ++ (Text.strip line ++ after).takeWhile (· ≠ '|') := by
    rw [← List.takeWhile_append_of_pos (hplain hb), ← List.append_assoc, ← hline]
  rw [Text.firstWord, Text.firstWord, Text.words, Text.words, hcut, Text.runs_cut_append hb,
    List.takeWhile_append]
  split
  · rename_i hall
    rw [(List.takeWhile_prefix _).eq_of_length hall, hafter, Text.runs_append_of_cut ha]
  · rfl

theorem looksLikePipeline_append_pipe (h : looksLikePipeline line = true) (rest : Text) :
    looksLikePipeline (line ++ '|' :: rest) = true := by
  have hpipe : '|' ∈ Text.strip (line ++ '|' :: rest) := Text.mem_strip (by decide) (by simp)
  have hhead : (line ++ '|' :: rest).takeWhile (· ≠ '|') = line.takeWhile (· ≠ '|') := by
    rw [List.takeWhile_append]
    split
    · rename_i hall
      rw [(List.takeWhile_prefix _).eq_of_length hall]
      simp
    · rfl
  rw [looksLikePipeline, firstWord_takeWhile_strip, Bool.and_eq_true] at h
  rw [looksLikePipeline, firstWord_takeWhile_strip, hhead, h.1]
  simpa using Or.inl hpipe

/-! ## Stages -/

/-- The segment is read as the stage. -/
def Reads (segment : Text) (stage : Stage) : Prop :=
  readStage? segment = .ok (some stage)

variable {segment : Text} {segments front back : List Text} {stage : Stage} {stages : List Stage}

theorem readStages_cons (h : Reads segment stage) (rest : List Text) :
    readStages (segment :: rest) = (readStages rest).map (Except.map (stage :: ·)) := by
  rw [readStages, h, Attempt.ok_bind]
  cases readStages rest with
  | error f => rfl
  | ok r => cases r <;> rfl

/-- The stages of further segments follow those that were read. -/
theorem readStages_append (h : List.Forall₂ Reads front stages) (back : List Text) :
    readStages (front ++ back) = (readStages back).map (Except.map (stages ++ ·)) := by
  induction h with
  | nil =>
      rw [List.nil_append]
      cases readStages back with
      | error f => rfl
      | ok r => cases r <;> rfl
  | cons hs _ ih =>
      rw [List.cons_append, readStages_cons hs, ih]
      cases readStages back with
      | error f => rfl
      | ok r => cases r <;> rfl

theorem readStages_of_reads (h : List.Forall₂ Reads segments stages) :
    readStages segments = .ok (.ok stages) := by
  have happend := readStages_append h []
  simpa [readStages, Except.map] using happend

theorem reads_of_readStages (h : readStages segments = .ok (.ok stages)) :
    List.Forall₂ Reads segments stages := by
  induction segments generalizing stages with
  | nil =>
      obtain rfl : [] = stages := by simpa [readStages] using h
      exact .nil
  | cons segment rest ih =>
      rw [readStages] at h
      cases hs : readStage? segment with
      | error f => simp [hs] at h
      | ok found =>
          cases found with
          | none => simp [hs] at h
          | some stage =>
              cases hrest : readStages rest with
              | error f => simp [hs, hrest] at h
              | ok r =>
                  cases r with
                  | error bad => simp [hs, hrest] at h
                  | ok more =>
                      obtain rfl : stage :: more = stages := by simpa [hs, hrest] using h
                      exact .cons hs (ih hrest)

/-- The segment is a stage. -/
def isStage (segment : Text) : Bool :=
  match readStage? segment with
  | .ok found => found.isSome
  | .error _ => false

theorem exists_reads_of_isStage (h : isStage segment = true) : ∃ stage, Reads segment stage := by
  rw [isStage] at h
  split at h
  · rename_i found hread
    obtain ⟨stage, rfl⟩ := Option.isSome_iff_exists.mp h
    exact ⟨stage, hread⟩
  · cases h

theorem exists_reads (h : ∀ segment ∈ segments, isStage segment = true) :
    ∃ stages, List.Forall₂ Reads segments stages := by
  induction segments with
  | nil => exact ⟨[], .nil⟩
  | cons segment rest ih =>
      obtain ⟨hsegment, hrest⟩ := List.forall_mem_cons.mp h
      obtain ⟨stage, hstage⟩ := exists_reads_of_isStage hsegment
      obtain ⟨stages, hstages⟩ := ih hrest
      exact ⟨stage :: stages, .cons hstage hstages⟩

/-- Reading stops at the first segment that is no stage. -/
theorem readStages_of_find? {bad : Text} (h : segments.find? (!isStage ·) = some bad)
    (hbad : readStage? bad = .ok none) : readStages segments = .ok (.error bad) := by
  obtain ⟨-, front, back, rfl, hfront⟩ := List.find?_eq_some_iff_append.mp h
  obtain ⟨stages, hstages⟩ := exists_reads fun segment hmem => by simpa using hfront segment hmem
  rw [readStages_append hstages, readStages, hbad]
  rfl

/-- The first stage alone decides whether stages can run. -/
theorem ofStages_append (h : (ofStages stages).isRunnable = true) (more : List Stage) :
    ofStages (stages ++ more) = { stages := stages ++ more, isPipeline := true } := by
  cases stages with
  | nil => simp [ofStages, isRunnable] at h
  | cons first stages =>
      rw [ofStages] at h
      split at h
      · simp [isRunnable] at h
      · rename_i hsource
        exact if_neg hsource

/-- What a line is read as when its segments are read so. -/
def ofRead : Except Text (List Stage) → Pipeline
  | .error bad =>
      { isPipeline := true, error := some ("Unknown command: " ++ Text.firstWord bad) }
  | .ok stages => ofStages stages

theorem read_eq (line : Text) :
    read line = if looksLikePipeline line then (readStages (filledSegments line)).map ofRead
      else .ok {} := by
  rw [read, commandSegments_eq]
  split
  · cases readStages (filledSegments line) with
    | error f => rfl
    | ok r => cases r <;> rfl
  · rfl

/-- A runnable line looks like one, and all of its segments are read as stages. -/
theorem reads_of_runnable {p : Pipeline} (h : read line = .ok p) (hp : p.isRunnable = true) :
    looksLikePipeline line = true ∧ List.Forall₂ Reads (filledSegments line) p.stages
      ∧ (ofStages p.stages).isRunnable = true := by
  rw [read_eq] at h
  split at h
  · rename_i hlooks
    cases hread : readStages (filledSegments line) with
    | error f => simp [hread, Except.map] at h
    | ok r =>
        obtain rfl : ofRead r = p := by simpa [hread, Except.map] using h
        cases r with
        | error bad => simp [ofRead, isRunnable] at hp
        | ok stages =>
            have hstages : (ofStages stages).stages = stages := by
              have happend := ofStages_append hp []
              rw [List.append_nil] at happend
              rw [happend]
            rw [ofRead, hstages]
            exact ⟨hlooks, reads_of_readStages hread, hp⟩
  · obtain rfl : {} = p := Except.ok.inj h
    simp [isRunnable] at hp

/-- Behind a runnable line only the further segments have to be read. -/
theorem read_append_pipe {p : Pipeline} (hline : read line = .ok p) (hp : p.isRunnable = true)
    (hclosed : Token.Closed line) (rest : Text) :
    read (line ++ '|' :: rest)
      = (readStages (filledSegments rest)).map (ofRead ∘ Except.map (p.stages ++ ·)) := by
  obtain ⟨hlooks, hreads, -⟩ := reads_of_runnable hline hp
  rw [read_eq, if_pos (looksLikePipeline_append_pipe hlooks rest),
    filledSegments_append_pipe hclosed, readStages_append hreads]
  cases readStages (filledSegments rest) <;> rfl

/-- A line that goes on after a pipe character is read piece by piece. Behind a runnable line with
closed quotes the further segments add their stages in order, and the first one that is no stage
makes the whole line an unknown command. Blank segments do not matter there. -/
theorem read_joined {p : Pipeline} (hline : read line = .ok p) (hp : p.isRunnable = true)
    (hclosed : Token.Closed line) (rest : Text) :
    (∀ more, List.Forall₂ Reads (filledSegments rest) more →
        read (line ++ '|' :: rest) = .ok { stages := p.stages ++ more, isPipeline := true }
          ∧ isRunnable { stages := p.stages ++ more, isPipeline := true } = true)
      ∧ (∀ bad, (filledSegments rest).find? (!isStage ·) = some bad → readStage? bad = .ok none →
        read (line ++ '|' :: rest) = .ok
          { isPipeline := true, error := some ("Unknown command: " ++ Text.firstWord bad) })
      ∧ ∀ other, filledSegments other = filledSegments rest →
        read (line ++ '|' :: other) = read (line ++ '|' :: rest) := by
  have hread := read_append_pipe hline hp hclosed
  obtain ⟨-, -, hrun⟩ := reads_of_runnable hline hp
  refine ⟨fun more hmore => ⟨?_, ?_⟩, fun bad hfind hbad => ?_, fun other h => ?_⟩
  · rw [hread, readStages_of_reads hmore, ← ofStages_append hrun]
    rfl
  · have hne : p.stages ≠ [] := by
      intro hnil
      simp [hnil, ofStages, isRunnable] at hrun
    simp [isRunnable, hne]
  · rw [hread, readStages_of_find? hfind hbad]
    rfl
  · rw [hread, hread, h]

/-- The stage of a count of lines. -/
def lineCounting : Stage :=
  ⟨.wordCount, [(.countLines, .flag true), (.countWords, .flag false), (.countChars, .flag false)]⟩

/-- Blank segments do not matter, nor does a quoted pipe character or an open quote behind. -/
theorem read_joined_counting :
    read "cat 'a|b'| \t| WC -l |nope \"|"
        = .ok { isPipeline := true, error := some "Unknown command: nope" }
      ∧ read "cat 'a|b'| \t| WC -l" = .ok
        { stages := [⟨.concatenate, [(.path, .text "a|b")]⟩, lineCounting]
          isPipeline := true } := by
  have hline : read "cat 'a|b'"
      = .ok { stages := [⟨.concatenate, [(.path, .text "a|b")]⟩], isPipeline := true } := rfl
  have hcounting : Reads "WC -l" lineCounting := rfl
  have hjoined := read_joined hline rfl rfl
  exact ⟨(hjoined " \t| WC -l |nope \"|").2.1 _ rfl rfl,
    ((hjoined " \t| WC -l").1 _ (.cons hcounting .nil)).1⟩

end PipeShell.Pipeline
