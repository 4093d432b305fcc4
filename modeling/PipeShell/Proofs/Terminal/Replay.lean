import PipeShell.Proofs.Shell.Stage
import PipeShell.Proofs.Terminal.Reads

/-!
# Histories as replay logs

What a session does to its shell is what the entries of its history do when they are run one after
another in the shell that it started with. Every line that is run is recorded, and every line that is
recorded is run unless it is a farewell.
-/

namespace PipeShell

namespace Editor

variable {e : Editor} {prompt key : Text}

/-- The key submits the line. -/
def IsEnter (key : Text) : Prop :=
  key = ['\r'] ∨ key = ['\n']

instance (key : Text) : Decidable (IsEnter key) :=
  inferInstanceAs (Decidable (_ ∨ _))

/-- What a key enters into the history: the line as it stands, when the key submits it and it is not
blank. -/
def recorded? (key : Text) (e : Editor) : Option Text :=
  if IsEnter key ∧ Text.strip e.buffer ≠ [] then some e.buffer else none

theorem ofKey_eq_enter : Press.ofKey key = .enter ↔ IsEnter key := by
  constructor
  · intro h
    unfold Press.ofKey at h
    split at h
    · exact .inl rfl
    · exact .inr rfl
    all_goals try cases h
    -- Only what the catch-all case gives is still open.
    split at h <;> cases h
  · rintro (rfl | rfl) <;> rfl

theorem history_edit (press : Press) : (e.edit prompt press).1.history = e.history := by
  cases press with
  | enter | insert | clear | interrupt | ignored => rfl
  | backspace =>
      simp only [edit, backspace]
      split <;> rfl
  | left | right | home | toEnd =>
      simp only [edit, moveTo]
      split <;> rfl
  | up =>
      simp only [edit, historyBack]
      cases e.recalled <;> simp only <;> split <;> rfl
  | down =>
      simp only [edit, historyForward]
      cases e.recalled with
      | none => rfl
      | some i =>
          simp only
          split <;> rfl

theorem handle_of_not_isEnter (h : ¬IsEnter key) :
    e.handle prompt key
      = ((e.edit prompt (Press.ofKey key)).1, (e.edit prompt (Press.ofKey key)).2, none) := by
  rw [← ofKey_eq_enter] at h
  unfold handle
  cases hp : Press.ofKey key with
  | enter => exact absurd hp h
  | _ => rfl

theorem handle_of_isEnter (h : IsEnter key) : e.handle prompt key = e.submit prompt := by
  rw [handle, ofKey_eq_enter.mpr h]

/-- A line is submitted exactly when it is recorded. -/
theorem handle_records (prompt key : Text) (e : Editor) :
    (e.handle prompt key).1.history = e.history ++ (e.recorded? key).toList
      ∧ (e.handle prompt key).2.2 = (e.recorded? key).map Text.strip := by
  by_cases hk : IsEnter key
  · rw [handle_of_isEnter hk]
    by_cases hb : Text.strip e.buffer = [] <;> simp [submit, recorded?, resetLine, hk, hb]
  · rw [handle_of_not_isEnter hk]
    simp [recorded?, hk, history_edit]

theorem recorded?_of_blank (hb : Text.strip e.buffer = []) : e.recorded? key = none := by
  simp [recorded?, hb]

theorem recorded?_of_not_isEnter (h : ¬IsEnter key) : e.recorded? key = none := by
  simp [recorded?, h]

end Editor

namespace Session

open PipeShell.Action

/-- The session after keys that are fed one after another, whatever each of them answers. -/
def fed (keys : List Text) (s : Session) : Session :=
  keys.foldl (fun s key => ((feed key).outcome s).2) s

/-- Runs an entry of a history. A farewell runs nothing, and a line that cannot be read leaves
everything as it is. -/
def replayEntry (state : ShellState) (entry : Text) : ShellState :=
  let line := Text.strip entry
  if exitWords.contains line then state
  else
    match (Shell.exec line).outcome state with
    | (.ok _, after) => after
    | (.error _, _) => state

/-- Runs the entries of a history one after another. -/
def replay (entries : List Text) (state : ShellState) : ShellState :=
  entries.foldl replayEntry state

/-- A line that cannot be read changes nothing. -/
theorem outcome_exec_snd (line : Text) (state : ShellState) :
    ((Shell.exec line).outcome state).2
      = match (Shell.exec line).outcome state with
        | (.ok _, after) => after
        | (.error _, _) => state := by
  rw [Shell.exec, Handlers.outcome_exec]
  split
  · rfl
  · split <;> rfl

theorem runLine_snd (line : Text) (s : Session) :
    ((runLine line).outcome s).2.state = ((Shell.exec line).outcome s.state).2
      ∧ ((runLine line).outcome s).2.editor = s.editor := by
  have hrun : (Shell.exec line).outcome s.state = (Shell.exec line).run s.state := rfl
  rw [hrun]
  simp only [outcome, runLine]
  generalize (Shell.exec line).run s.state = out
  obtain ⟨r, state⟩ := out
  cases r <;> exact ⟨rfl, rfl⟩

theorem replayEntry_of_farewell {entry : Text} (h : exitWords.contains (Text.strip entry) = true)
    (state : ShellState) : replayEntry state entry = state := by
  rw [replayEntry, if_pos h]

theorem replayEntry_of_line {entry : Text} (h : ¬exitWords.contains (Text.strip entry) = true)
    (state : ShellState) :
    replayEntry state entry = ((Shell.exec (Text.strip entry)).outcome state).2 := by
  rw [replayEntry, if_neg h, outcome_exec_snd]

/-- One key records what it runs, and runs what it records. -/
theorem feed_replays (key : Text) (s : Session) :
    ((feed key).outcome s).2.editor.history = s.editor.history ++ (s.editor.recorded? key).toList
      ∧ ((feed key).outcome s).2.state = replay (s.editor.recorded? key).toList s.state := by
  by_cases hend : key = endKey ∧ s.editor.buffer = []
  · have hout : (feed key).outcome s = (.ok false, s.paint [Editor.newline]) := by
      rw [feed, outcome_bind, outcome_get]
      simp only [if_pos hend]
      rfl
    have hblank : Text.strip s.editor.buffer = [] := by rw [hend.2]; rfl
    rw [hout, Editor.recorded?_of_blank hblank]
    simp [paint, replay]
  · have hrecords := Editor.handle_records s.prompt key s.editor
    rw [feed, outcome_bind, outcome_get]
    simp only [if_neg hend]
    generalize s.editor.handle s.prompt key = out at hrecords
    obtain ⟨editor, strokes, line⟩ := out
    obtain ⟨hhistory, rfl⟩ : editor.history = s.editor.history ++ (s.editor.recorded? key).toList
      ∧ line = (s.editor.recorded? key).map Text.strip := hrecords
    rw [outcome_bind, outcome_set]
    cases hr : s.editor.recorded? key with
    | none =>
        rw [hr] at hhistory
        exact ⟨hhistory, rfl⟩
    | some entry =>
        rw [hr] at hhistory
        change _ ∧ _ = replayEntry s.state entry
        by_cases hexit : exitWords.contains (Text.strip entry) = true
        · simp only [Option.map_some, hexit, if_true]
          exact ⟨hhistory, (replayEntry_of_farewell hexit _).symm⟩
        · obtain ⟨hstate, heditor⟩ := runLine_snd (Text.strip entry)
            (paint strokes { s with editor := editor })
          simp only [Option.map_some, if_neg hexit, bind_pure_comp, outcome_map]
          rw [replayEntry_of_line hexit]
          exact ⟨by rw [heditor]; exact hhistory, hstate⟩

/-- Keys record what they run, and run what they record. -/
theorem fed_replays (keys : List Text) (s : Session) :
    ∃ entries, (fed keys s).editor.history = s.editor.history ++ entries
      ∧ (fed keys s).state = replay entries s.state := by
  induction keys generalizing s with
  | nil => exact ⟨[], by simp [fed], rfl⟩
  | cons key keys ih =>
      obtain ⟨hhistory, hstate⟩ := feed_replays key s
      obtain ⟨entries, hmore, hrest⟩ := ih ((feed key).outcome s).2
      refine ⟨(s.editor.recorded? key).toList ++ entries, ?_, ?_⟩
      · rw [← List.append_assoc, ← hhistory]
        exact hmore
      · rw [replay, List.foldl_append, ← replay, ← replay, ← hstate]
        exact hrest

/-- Keys that run a line, then recall and change it and run it again, and abandon a third one. -/
def recalling : List Text :=
  ["mkdir a", "\r", "\x1b[A", "b", "\r", "mkdir c", "\x03"]

end Session

end PipeShell
