import PipeShell.Proofs.Pipeline.Joined
import PipeShell.Proofs.Pipeline.Words

/-!
# Command words

A line is known as a command by its first word, which any blank ends. The stage is read from the
first token, which goes on to a space or a tab. The two are the same word unless another blank stands
between them.
-/

namespace PipeShell

/-! ## First tokens -/

namespace Token

variable {word rest : Text} {c : Char}

/-- A plain text in front of a line goes in front of its first group. -/
theorem groups_scan_append (hplain : ∀ c ∈ word, isQuote c = false ∧ c ≠ '|')
    (hsolid : ∀ c ∈ word, isSeparator c = false) (rest : Text) :
    groups (scan (word ++ rest)) = inFront word (groups (scan rest)) := by
  have hword : Solid (word.map (·, false)) := by
    intro x hx
    obtain ⟨c, hc, rfl⟩ := List.mem_map.mp hx
    exact Or.inr (hsolid c hc)
  rw [scan, (writes_plain hplain).scanFrom_append rest, groups_append_solid hword, ← scan]
  simp [Function.comp_def]

/-- A word is a token when a separator ends it. -/
theorem tokenize_append (hplain : ∀ c ∈ word, isQuote c = false ∧ c ≠ '|')
    (hsolid : ∀ c ∈ word, isSeparator c = false) (hne : word ≠ [])
    (hrest : ∀ c ∈ rest.head?, isSeparator c = true) :
    ∃ tokens, tokenize (word ++ rest) = word :: tokens := by
  rw [tokenize, groups_scan_append hplain hsolid]
  cases rest with
  | nil => exact ⟨[], by simp [scan, scanFrom, groups, inFront, hne]⟩
  | cons c rest =>
      have hc : isSeparator c = true := hrest c rfl
      have hquote : isQuote c = false := by
        rcases (by simpa [isSeparator] using hc : c = ' ' ∨ c = '\t') with rfl | rfl <;> rfl
      exact ⟨(groups (scan rest)).filter (· ≠ []),
        by simp [scan, scanFrom, hquote, groups, hc, inFront, hne]⟩

theorem tokenize_append_cons (hplain : ∀ c ∈ word, isQuote c = false ∧ c ≠ '|')
    (hsolid : ∀ c ∈ word, isSeparator c = false) (hquote : isQuote c = false)
    (hc : isSeparator c = false) (rest : Text) :
    ∃ more tokens, tokenize (word ++ c :: rest) = (word ++ c :: more) :: tokens := by
  obtain ⟨g, gs, hg⟩ := List.exists_cons_of_ne_nil (groups_ne_nil (scanFrom none rest))
  refine ⟨g, gs.filter (· ≠ []), ?_⟩
  rw [tokenize, groups_scan_append hplain hsolid, scan, scanFrom, if_neg (by simp [hquote]),
    groups_cons_solid (Or.inr hc), hg]
  simp [inFront]

/-- The first piece starts as the line does, unless a pipe character ends it there. -/
theorem head?_segmentsFrom {t s : Text} {pieces : List Text}
    (h : segmentsFrom none t = s :: pieces) : ∀ c ∈ s.head?, c ∈ t.head? ∧ c ≠ '|' := by
  cases t with
  | nil =>
      obtain ⟨rfl, -⟩ : [] = s ∧ [] = pieces := by simpa [segmentsFrom] using h
      simp
  | cons d t =>
      by_cases hd : d = '|'
      · obtain ⟨rfl, -⟩ : [] = s ∧ segmentsFrom none t = pieces := by
          simpa [segmentsFrom, hd] using h
        simp
      · rw [segmentsFrom_cons (by simp [hd])] at h
        obtain ⟨s', pieces', hrest⟩ := List.exists_cons_of_ne_nil
          (segmentsFrom_ne_nil (nextQuote none d) t)
        rw [hrest, inFront] at h
        obtain rfl : d :: s' = s := (List.cons.inj h).1
        simp [hd]

end Token

namespace Pipeline

variable {line word after rest : Text}

/-- The word that tells whether a line is a command. -/
def commandWord (line : Text) : Text :=
  Text.firstWord ((Text.strip line).takeWhile (· ≠ '|'))

theorem exists_resolve_commandWord (h : looksLikePipeline line = true) :
    ∃ verb, Verb.resolve? (commandWord line) = some verb := by
  rw [looksLikePipeline, Bool.and_eq_true] at h
  exact Option.isSome_iff_exists.mp h.1

/-! ## First segments -/

/-- A blank or a pipe character ends the word of a command, so its first segment goes on from there
if at all. -/
theorem exists_segments_strip (h : looksLikePipeline line = true) :
    ∃ after rest, Token.segments (Text.strip line) = (commandWord line ++ after) :: rest
      ∧ ∀ c ∈ after.head?, Text.isBlank c = true := by
  obtain ⟨verb, hverb⟩ := exists_resolve_commandWord h
  let head := (Text.strip line).takeWhile (· ≠ '|')
  let tail := (Text.strip line).dropWhile (· ≠ '|')
  have hcut : head ++ tail = Text.strip line := List.takeWhile_append_dropWhile
  have hstart : ∀ c ∈ head.head?, Text.isBlank c = false := by
    intro c hc
    refine (Text.trimmed_strip line).start c ?_
    rw [← hcut, List.head?_append, Option.mem_def.mp hc, Option.some_or, Option.mem_def]
  obtain ⟨behind, hhead, hblank⟩ := Text.exists_firstWord_append hstart
  change head = commandWord line ++ behind at hhead
  -- The word has no quote, so the first segment starts with it and goes on as the rest does.
  have hwrites := (Token.writes_plain (Verb.plain_of_resolve hverb)).segmentsFrom_append
    (behind ++ tail)
  rw [← List.append_assoc, ← hhead, hcut] at hwrites
  obtain ⟨s, rest, hs⟩ := List.exists_cons_of_ne_nil
    (Token.segmentsFrom_ne_nil none (behind ++ tail))
  refine ⟨s, rest, by rw [Token.segments, hwrites, hs, Token.inFront], fun c hc => ?_⟩
  obtain ⟨hfirst, hpipe⟩ := Token.head?_segmentsFrom hs c hc
  cases behind with
  | nil =>
      have hnot := List.head?_dropWhile_not (· ≠ '|') (Text.strip line)
      rw [List.nil_append] at hfirst
      rw [Option.mem_def.mp hfirst] at hnot
      exact absurd (by simpa using hnot) hpipe
  | cons b behind => exact hblank c hfirst

/-- The first segment of a command starts with the command's word. -/
theorem exists_commandSegments (h : looksLikePipeline line = true) :
    ∃ after rest, commandSegments line = (commandWord line ++ after) :: rest
      ∧ ∀ c ∈ after.head?, Text.isBlank c = true := by
  obtain ⟨verb, hverb⟩ := exists_resolve_commandWord h
  have hne := Verb.ne_nil_of_resolve hverb
  obtain ⟨after, rest, hsegments, hafter⟩ := exists_segments_strip h
  have hstrip := Text.strip_append_of_open
    (Text.trimmed_of_blankless (Verb.blankless_of_resolve hverb)) hne after
  refine ⟨Text.stripRight after, (rest.map Text.strip).filter (· ≠ []), ?_,
    fun c hc => hafter c (Text.head?_stripRight c hc)⟩
  rw [commandSegments, hsegments, List.map_cons, hstrip, List.filter_cons_of_pos (by simp [hne])]

theorem trimmed_of_mem_commandSegments {segment : Text} (h : segment ∈ commandSegments line) :
    segment.Trimmed := by
  obtain ⟨piece, _, rfl⟩ := List.mem_map.mp (List.mem_filter.mp h).1
  exact Text.trimmed_strip piece

/-! ## First stages -/

theorem solid_of_resolve {verb : Verb} (h : Verb.resolve? word = some verb) :
    ∀ c ∈ word, Token.isSeparator c = false := by
  intro c hc
  have hne (d : Char) (hd : Text.isBlank d = true) : c ≠ d := by
    rintro rfl
    simp [Verb.blankless_of_resolve h c hc] at hd
  simp [Token.isSeparator, hne ' ' (by decide), hne '\t' (by decide)]

/-- A segment has the verb of its word when a space or a tab ends the word, or nothing does. -/
theorem exists_reads_append {verb : Verb} (hverb : Verb.resolve? word = some verb)
    (htrimmed : (word ++ after).Trimmed) (hafter : ∀ c ∈ after.head?, Token.isSeparator c = true)
    (hread : ¬Attempt.Fails (readStage? (word ++ after))) :
    ∃ stage, Reads (word ++ after) stage ∧ stage.verb = verb := by
  obtain ⟨tokens, htokens⟩ := Token.tokenize_append (Verb.plain_of_resolve hverb)
    (solid_of_resolve hverb) (Verb.ne_nil_of_resolve hverb) hafter
  have hstage : readStage? (word ++ after)
      = (Args.parse verb tokens).map fun args => some ⟨verb, args⟩ := by
    simp only [readStage?, htrimmed.strip_eq, htokens, hverb]
    rfl
  cases hparse : Args.parse verb tokens with
  | error f =>
      rw [hstage, hparse] at hread
      exact absurd ⟨f, rfl⟩ hread
  | ok args => exact ⟨⟨verb, args⟩, by rw [Reads, hstage, hparse]; rfl, rfl⟩

/-- A segment is no stage when another blank ends its word: that blank is part of the first token,
and no verb has a blank. -/
theorem readStage?_append_cons {verb : Verb} {c : Char} (hverb : Verb.resolve? word = some verb)
    (htrimmed : (word ++ c :: after).Trimmed) (hblank : Text.isBlank c = true)
    (hc : Token.isSeparator c = false) : readStage? (word ++ c :: after) = .ok none := by
  obtain ⟨more, tokens, htokens⟩ := Token.tokenize_append_cons (Verb.plain_of_resolve hverb)
    (solid_of_resolve hverb) (Token.plain_of_isBlank hblank).1 hc after
  have hnone : Verb.resolve? (word ++ c :: more) = none := by
    by_contra hsome
    obtain ⟨other, hother⟩ := Option.ne_none_iff_exists'.mp hsome
    simp [Verb.blankless_of_resolve hother c (by simp)] at hblank
  simp only [readStage?, htrimmed.strip_eq, htokens, hnone]

/-- The first segment of a command starts with the word that tells that it is one. The segment is
read as a stage of this word's verb exactly when a space or a tab ends the word, or nothing does.
When another blank does, the line is rejected for an unknown command, and the command that it names
is this word. -/
theorem command_word_read_iff (h : looksLikePipeline line = true) :
    ∃ after rest, commandSegments line = (commandWord line ++ after) :: rest
      ∧ (∀ c ∈ after.head?, Text.isBlank c = true)
      ∧ (¬Attempt.Fails (readStage? (commandWord line ++ after)) →
          ((∃ stage, Reads (commandWord line ++ after) stage
              ∧ Verb.resolve? (commandWord line) = some stage.verb)
            ↔ ∀ c ∈ after.head?, Token.isSeparator c = true))
      ∧ ((∃ c ∈ after.head?, Token.isSeparator c = false) →
          read line = .ok
            { isPipeline := true
              error := some ("Unknown command: " ++ commandWord line) }) := by
  obtain ⟨verb, hverb⟩ := exists_resolve_commandWord h
  obtain ⟨after, rest, hsegments, hafter⟩ := exists_commandSegments h
  have hmem : commandWord line ++ after ∈ commandSegments line := by simp [hsegments]
  have htrimmed := trimmed_of_mem_commandSegments hmem
  have hother (c : Char) (hc : c ∈ after.head?) (hsep : Token.isSeparator c = false) :
      readStage? (commandWord line ++ after) = .ok none := by
    obtain ⟨behind, rfl⟩ : ∃ behind, after = c :: behind := List.head?_eq_some_iff.mp hc
    exact readStage?_append_cons hverb htrimmed (hafter c hc) hsep
  refine ⟨after, rest, hsegments, hafter, fun hread => ⟨?_, fun hsep => ?_⟩, ?_⟩
  · rintro ⟨stage, hstage, -⟩ c hc
    by_contra hsep
    exact nomatch hstage.symm.trans (hother c hc (by simpa using hsep))
  · obtain ⟨stage, hstage, rfl⟩ := exists_reads_append hverb htrimmed hsep hread
    exact ⟨stage, hstage, hverb⟩
  · rintro ⟨c, hc, hsep⟩
    have hword : Text.firstWord (commandWord line ++ after) = commandWord line :=
      Text.firstWord_append (Verb.ne_nil_of_resolve hverb) (Verb.blankless_of_resolve hverb) hafter
    rw [read, if_pos h, hsegments, readStages, hother c hc hsep]
    simp [hword]

/-- A tab ends the word of both. -/
theorem command_word_read_tab :
    looksLikePipeline "WC\t-l" = true
      ∧ ∃ stage, Reads "WC\t-l" stage ∧ Verb.resolve? "WC" = some stage.verb := by
  have hlooks : looksLikePipeline "WC\t-l" = true := by decide +kernel
  obtain ⟨after, rest, hsegments, -, hread, -⟩ := command_word_read_iff hlooks
  have hword : commandWord "WC\t-l" = "WC" := by decide +kernel
  have hline : commandSegments "WC\t-l" = ["WC\t-l"] := by decide +kernel
  rw [hword] at hsegments hread
  obtain rfl : after = "\t-l" := by simpa using (List.cons.inj (hsegments.symm.trans hline)).1
  have hstage : Reads "WC\t-l" lineCounting := rfl
  refine ⟨hlooks, (hread ?_).mpr fun c hc => ?_⟩
  · rintro ⟨f, hf⟩
    exact nomatch hf.symm.trans hstage
  · obtain rfl : '\t' = c := Option.some.inj hc
    rfl

/-- The line is known as a command by its word, and the word is then called unknown. -/
theorem known_word_rejected :
    looksLikePipeline "pwd\u00a0x" = true ∧ commandWord "pwd\u00a0x" = "pwd"
      ∧ Verb.resolve? "pwd" = some .printWorkingDirectory
      ∧ commandSegments "pwd\u00a0x" = ["pwd\u00a0x"]
      ∧ readStage? "pwd\u00a0x" = .ok none
      ∧ read "pwd\u00a0x"
        = .ok { isPipeline := true, error := some "Unknown command: pwd" } := by
  decide +kernel

end Pipeline

end PipeShell
