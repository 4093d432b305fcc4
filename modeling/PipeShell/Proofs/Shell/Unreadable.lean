import PipeShell.Proofs.Args.Counts
import PipeShell.Proofs.Pipeline.Joined
import PipeShell.Proofs.Shell.Stage

/-!
# Unreadable lines

A line cannot be read exactly when one of its stages has a count that is too long, before the first
segment that is no stage. Nothing else makes a call of a shell fail.
-/

namespace PipeShell

open Attempt (Fails Gives)
open Numeral (TooLong IsTooMany)

namespace Pipeline

variable {line segment : Text} {segments : List Text} {found : Option Stage}

/-- The segment has tokens, and the first one is a verb. -/
def startsWithVerb (segment : Text) : Bool :=
  (Token.tokenize segment).head?.any Verb.isKnown

/-- The segment is a line range with a count that is too long. -/
def CountsTooLong (segment : Text) : Prop :=
  ∃ name v tokens, Token.tokenize segment = name :: tokens ∧ Verb.resolve? name = some v
    ∧ (v = .head ∨ v = .tail) ∧ Args.MeetsCount TooLong false tokens

theorem CountsTooLong.startsWithVerb (h : CountsTooLong segment) :
    startsWithVerb segment = true := by
  obtain ⟨name, v, tokens, htokens, hname, -⟩ := h
  simp [Pipeline.startsWithVerb, htokens, Verb.isKnown, hname]

/-! ## Segments -/

theorem fails_readStage? (h : segment.Trimmed) :
    Fails (readStage? segment) ↔ CountsTooLong segment := by
  rw [readStage?, h.strip_eq, CountsTooLong]
  cases htokens : Token.tokenize segment with
  | nil => simp
  | cons name tokens =>
      cases hname : Verb.resolve? name with
      | none => simp [hname]
      | some v =>
          have hparse : Fails (Args.parse v tokens)
              ↔ (v = .head ∨ v = .tail) ∧ Args.MeetsCount TooLong false tokens := Args.fails_parse
          cases hargs : Args.parse v tokens <;> simp_all

/-- A segment that can be read is a stage exactly when it starts with a verb. -/
theorem isSome_of_readStage? (h : segment.Trimmed) (hread : readStage? segment = .ok found) :
    found.isSome = startsWithVerb segment := by
  rw [readStage?, h.strip_eq] at hread
  rw [startsWithVerb]
  cases htokens : Token.tokenize segment with
  | nil =>
      obtain rfl : none = found := by simpa [htokens] using hread
      rfl
  | cons name tokens =>
      cases hname : Verb.resolve? name with
      | none =>
          obtain rfl : none = found := by simpa [htokens, hname] using hread
          simp [Verb.isKnown, hname]
      | some v =>
          simp only [htokens, hname] at hread
          cases hargs : Args.parse v tokens with
          | error f => simp [hargs] at hread
          | ok args =>
              obtain rfl : some ⟨v, args⟩ = found := by simpa [hargs] using hread
              simp [Verb.isKnown, hname]

/-- Segments are read from left to right up to the first one that is no stage. -/
theorem fails_readStages (h : ∀ segment ∈ segments, segment.Trimmed) :
    Fails (readStages segments)
      ↔ ∃ segment ∈ segments.takeWhile startsWithVerb, CountsTooLong segment := by
  induction segments with
  | nil => simp [readStages]
  | cons segment rest ih =>
      obtain ⟨hsegment, hrest⟩ := List.forall_mem_cons.mp h
      have hstage := fails_readStage? hsegment
      cases hread : readStage? segment with
      | error f =>
          have hlong : CountsTooLong segment := hstage.mp ⟨f, hread⟩
          simp [readStages, hread, hlong, hlong.startsWithVerb]
      | ok found =>
          have hstarts := isSome_of_readStage? hsegment hread
          cases found with
          | none => simp [readStages, hread, ← hstarts]
          | some stage =>
              -- The segment was read, so a failure comes from the rest.
              have hshort : ¬CountsTooLong segment := fun hlong => by
                simpa [hread] using hstage.mpr hlong
              rw [readStages_cons hread, Attempt.fails_map, ih hrest]
              simp [← hstarts, hshort]

theorem trimmed_of_mem_filledSegments (h : segment ∈ filledSegments line) : segment.Trimmed := by
  obtain ⟨hmem, -⟩ := List.mem_filter.mp h
  obtain ⟨piece, -, rfl⟩ := List.mem_map.mp hmem
  exact Text.trimmed_strip piece

theorem fails_read (line : Text) :
    Fails (read line) ↔ looksLikePipeline line = true
      ∧ ∃ segment ∈ (filledSegments line).takeWhile startsWithVerb, CountsTooLong segment := by
  rw [read_eq, ← fails_readStages fun _ => trimmed_of_mem_filledSegments]
  split
  · rename_i hlooks
    simp [hlooks]
  · rename_i hlooks
    simp [hlooks]

/-! ## The failure -/

theorem gives_readStage? (segment : Text) :
    Gives (readStage? segment) (fun _ => True) IsTooMany := by
  rw [readStage?]
  split
  · exact trivial
  · split
    · exact trivial
    · exact (Args.gives_parse _ _).bind fun _ _ => trivial

theorem gives_readStages (segments : List Text) :
    Gives (readStages segments) (fun _ => True) IsTooMany := by
  induction segments with
  | nil => exact trivial
  | cons segment rest ih =>
      refine (gives_readStage? segment).bind fun found _ => ?_
      cases found with
      | none => exact trivial
      | some stage =>
          refine ih.bind fun r _ => ?_
          cases r <;> exact trivial

theorem gives_read (line : Text) : Gives (read line) (fun _ => True) IsTooMany := by
  rw [read]
  split
  · refine (gives_readStages _).bind fun r _ => ?_
    cases r <;> exact trivial
  · exact trivial

theorem looksLikePipeline_of_blank (h : Text.strip line = []) :
    looksLikePipeline line = false := by
  rw [looksLikePipeline, h]
  decide

end Pipeline

end PipeShell
