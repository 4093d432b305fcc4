import PipeShell.Proofs.Terminal.Screen
import PipeShell.Proofs.Text.Printable

/-!
# The screen in step with the editor

The editor repaints only what a key changes, and moves the cursor by relative motions. The row of the
screen reads as the prompt and the line all the same, with the cursor in its place, after every key.
-/

namespace PipeShell

namespace Editor

/-- The cursor stands in the line, and no control character is in the line or in the history. -/
structure Sound (e : Editor) : Prop where
  cursor_le : e.cursor ≤ e.buffer.length
  buffer : e.buffer.Printable
  history : ∀ entry ∈ e.history, entry.Printable

/-- The row of the screen reads as the prompt and the line, followed only by blanks, and the cursor
stands at the same character on the screen and in the line. -/
structure ShownOn (prompt : Text) (e : Editor) (s : Screen) : Prop where
  row : ∃ blanks, s.row = prompt ++ e.buffer ++ List.replicate blanks ' '
  column : s.column = prompt.length + e.cursor
  ground : s.progress = .ground

open Screen

variable {prompt front back t : Text} {e : Editor} {s : Screen} {n : Nat}

/-! ## Screens of a line -/

theorem shownOn_between (hb : e.buffer = front ++ back) (hc : e.cursor = front.length) :
    e.ShownOn prompt (between (prompt ++ front) (back ++ List.replicate n ' ')) where
  row := ⟨n, by simp [between, hb]⟩
  column := by simp [between, hc]
  ground := rfl

/-- The parts of the line before and after the cursor, which are so divided on the screen as well. -/
theorem ShownOn.exists_between (h : e.ShownOn prompt s) (he : e.Sound) :
    ∃ front back n, e.buffer = front ++ back ∧ e.cursor = front.length
      ∧ s = between (prompt ++ front) (back ++ List.replicate n ' ') := by
  obtain ⟨n, hrow⟩ := h.row
  have hlength : (e.buffer.take e.cursor).length = e.cursor := List.length_take_of_le he.cursor_le
  refine ⟨e.buffer.take e.cursor, e.buffer.drop e.cursor, n, ?_, hlength.symm, ?_⟩
  · rw [List.take_append_drop]
  · obtain ⟨row, column, progress⟩ := s
    obtain rfl : progress = .ground := h.ground
    obtain rfl : column = prompt.length + e.cursor := h.column
    obtain rfl : row = prompt ++ e.buffer ++ List.replicate n ' ' := hrow
    rw [between, List.length_append, hlength]
    congr 1
    rw [List.append_assoc prompt (List.take e.cursor e.buffer), ← List.append_assoc (List.take _ _),
      List.take_append_drop, List.append_assoc]

/-- A fresh row with the prompt shows an empty line. -/
theorem shownOn_prompt (hp : prompt.Printable) (hs : s.IsFresh) (hb : e.buffer = [])
    (hc : e.cursor = 0) : e.ShownOn prompt (s.play [.write prompt]) := by
  rw [hs.eq_between, play_write, play_nil, type_printable hp, List.nil_append, List.drop_replicate]
  have h : e.ShownOn prompt
      (between (prompt ++ []) ([] ++ List.replicate (s.row.length - prompt.length) ' ')) :=
    shownOn_between hb hc
  rwa [List.append_nil, List.nil_append] at h

theorem isFresh_newline : ((between front back).play [newline]).IsFresh := by
  rw [newline, play_write, play_nil, type_newline]
  exact isFresh_between 0

/-! ## Repainting -/

theorem shownOn_redraw (hp : prompt.Printable) (he : e.Sound) (front back : Text) :
    e.ShownOn prompt ((between front back).play [e.redraw prompt]) := by
  have hsplit : e.buffer = e.buffer.take e.cursor ++ e.buffer.drop e.cursor :=
    (List.take_append_drop _ _).symm
  have hrest : e.buffer.length - e.cursor = (e.buffer.drop e.cursor).length :=
    (List.length_drop ..).symm
  have hline : (between prompt []).type e.buffer = between (prompt ++ e.buffer) [] := by
    rw [type_printable he.buffer, List.drop_nil]
  have hback := type_leftward (prompt ++ e.buffer.take e.cursor) (e.buffer.drop e.cursor) []
  rw [List.append_assoc, ← hsplit, List.append_nil] at hback
  rw [redraw, play_write, play_nil, type_append, type_append, type_append, type_erase,
    type_printable hp, List.nil_append, List.drop_nil, hline, hrest, hback]
  have h : e.ShownOn prompt (between (prompt ++ e.buffer.take e.cursor)
      (e.buffer.drop e.cursor ++ List.replicate 0 ' ')) :=
    shownOn_between hsplit (List.length_take_of_le he.cursor_le).symm
  rwa [List.replicate_zero, List.append_nil] at h

theorem shownOn_insert (ht : t.Printable) (he : e.Sound) (h : e.ShownOn prompt s) :
    (e.insert t).1.ShownOn prompt (s.play (e.insert t).2) := by
  obtain ⟨front, back, n, hb, hc, rfl⟩ := h.exists_between he
  have hback : back.Printable := fun c hc => he.buffer c (by simp [hb, hc])
  have hfront : (e.insert t).1.buffer = (front ++ t) ++ back := by simp [insert, hb, hc]
  have hcursor : (e.insert t).1.cursor = (front ++ t).length := by simp [insert, hc]
  have hstrokes : (e.insert t).2 = [.write (t ++ back ++ leftward back.length)] := by
    simp [insert, hb, hc]
  have hrest : (back ++ List.replicate n ' ').drop (t ++ back).length
      = List.replicate (n - t.length) ' ' := by
    rw [List.drop_append, List.drop_eq_nil_of_le (by simp), List.nil_append, List.drop_replicate]
    congr 1
    simp
  rw [hstrokes, play_write, play_nil, type_append,
    type_printable (Text.printable_append.mpr ⟨ht, hback⟩), hrest, ← List.append_assoc,
    type_leftward, List.append_assoc]
  exact shownOn_between hfront hcursor

theorem shownOn_backspace (he : e.Sound) (h : e.ShownOn prompt s) :
    e.backspace.1.ShownOn prompt (s.play e.backspace.2) := by
  obtain ⟨front, back, n, hb, hc, rfl⟩ := h.exists_between he
  rcases List.eq_nil_or_concat front with rfl | ⟨before, c, rfl⟩
  · have hidle : e.backspace = (e, []) := by simp [backspace, hc]
    rw [hidle]
    exact h
  · have hrest : Text.Printable (back ++ [' ']) := by
      refine Text.printable_append.mpr ⟨fun c hc => he.buffer c (by simp [hb, hc]), ?_⟩
      decide
    have hstep : e.backspace = ({ e with buffer := before ++ back, cursor := before.length },
        [.write ("\x08" ++ (back ++ [' ']) ++ leftward (back ++ [' ']).length)]) := by
      simp [backspace, hb, hc]
    have hblanks : (c :: (back ++ List.replicate n ' ')).drop (back ++ [' ']).length
        = List.replicate n ' ' := by
      simp
    rw [hstep, play_write, play_nil, List.concat_eq_append, ← List.append_assoc prompt, type_append,
      type_append, type_back, type_printable hrest, hblanks, type_leftward, List.append_assoc back]
    exact shownOn_between (n := n + 1) rfl rfl

/-! ## Moving -/

theorem shownOn_moveTo (place : Nat) (he : e.Sound) (h : e.ShownOn prompt s) :
    (e.moveTo place).1.ShownOn prompt (s.play (e.moveTo place).2) := by
  obtain ⟨front, back, n, hb, hc, rfl⟩ := h.exists_between he
  have hlength : e.buffer.length = front.length + back.length := by rw [hb, List.length_append]
  unfold moveTo
  generalize hplace : min place e.buffer.length = target
  have htarget : target ≤ e.buffer.length := hplace ▸ Nat.min_le_right ..
  dsimp only
  split
  · exact h
  · rename_i hne
    rw [play_write, play_nil]
    split
    -- To the right the cursor goes over the first part of what is behind it.
    · rename_i hlt
      have hmiddle : (back.take (target - e.cursor)).length = target - e.cursor :=
        List.length_take_of_le (by omega)
      have hmove := type_rightward (prompt ++ front) (back.take (target - e.cursor))
        (back.drop (target - e.cursor) ++ List.replicate n ' ')
      rw [← List.append_assoc, List.take_append_drop, hmiddle, List.append_assoc] at hmove
      rw [hmove]
      refine shownOn_between ?_ ?_
      · simp [hb]
      · show target = _
        rw [List.length_append, hmiddle]
        omega
    -- To the left it goes back over the last part of what is in front of it.
    · rename_i hge
      have hmiddle : (front.drop target).length = e.cursor - target := by
        rw [List.length_drop, hc]
      have hmove := type_leftward (prompt ++ front.take target) (front.drop target)
        (back ++ List.replicate n ' ')
      rw [List.append_assoc, List.take_append_drop, hmiddle, ← List.append_assoc] at hmove
      rw [hmove]
      refine shownOn_between ?_ ?_
      · rw [hb, ← List.append_assoc, List.take_append_drop]
      · rw [List.length_take_of_le (by omega)]

/-! ## Soundness -/

theorem sound_init (hh : ∀ entry ∈ e.history, entry.Printable) (hb : e.buffer = [])
    (hc : e.cursor = 0) : e.Sound where
  cursor_le := by simp [hb, hc]
  buffer := by simp [hb, Text.Printable]
  history := hh

theorem Sound.insert (ht : t.Printable) (he : e.Sound) : (e.insert t).1.Sound where
  cursor_le := by
    have hcursor := he.cursor_le
    simp only [Editor.insert, List.length_append, List.length_take, List.length_drop]
    omega
  buffer := by
    refine Text.printable_append.mpr ⟨Text.printable_append.mpr ⟨?_, ht⟩, ?_⟩
    · exact fun c hc => he.buffer c (List.mem_of_mem_take hc)
    · exact fun c hc => he.buffer c (List.mem_of_mem_drop hc)
  history := he.history

theorem Sound.backspace (he : e.Sound) : e.backspace.1.Sound := by
  unfold Editor.backspace
  split
  · exact he
  · refine ⟨?_, ?_, he.history⟩
    · have hcursor := he.cursor_le
      simp only [List.length_append, List.length_take, List.length_drop]
      omega
    · refine Text.printable_append.mpr ⟨?_, ?_⟩
      · exact fun c hc => he.buffer c (List.mem_of_mem_take hc)
      · exact fun c hc => he.buffer c (List.mem_of_mem_drop hc)

theorem Sound.moveTo (place : Nat) (he : e.Sound) : (e.moveTo place).1.Sound := by
  unfold Editor.moveTo
  dsimp only
  split
  · exact he
  · exact ⟨Nat.min_le_right .., he.buffer, he.history⟩

theorem Sound.resetLine (he : e.Sound) : e.resetLine.Sound :=
  sound_init he.history rfl rfl

theorem Sound.submit (he : e.Sound) : (e.submit prompt).1.Sound := by
  unfold Editor.submit
  dsimp only
  split
  · exact he.resetLine
  · refine sound_init ?_ rfl rfl
    intro entry hentry
    rcases List.mem_append.mp hentry with hold | hnew
    · exact he.history entry hold
    · exact List.mem_singleton.mp hnew ▸ he.buffer

theorem Sound.recall (he : e.Sound) (i : Nat) : (e.history[i]?.getD []).Printable := by
  intro c hc
  cases hentry : e.history[i]? with
  | none => simp [hentry] at hc
  | some entry =>
      rw [hentry] at hc
      exact he.history entry (List.mem_of_getElem? hentry) c hc

/-! ## Keys -/

/-- The editor is sound and shown on the screen. -/
structure InStep (prompt : Text) (e : Editor) (s : Screen) : Prop where
  sound : e.Sound
  shown : e.ShownOn prompt s

theorem InStep.replaceLine (hp : prompt.Printable) (ht : t.Printable) (h : e.InStep prompt s)
    (recalled : Option Nat) :
    (replaceLine prompt t { e with recalled }).1.InStep prompt
      (s.play (replaceLine prompt t { e with recalled }).2) := by
  obtain ⟨front, back, n, -, -, rfl⟩ := h.shown.exists_between h.sound
  have he : Sound { e with buffer := t, cursor := t.length, recalled } :=
    ⟨Nat.le_refl _, ht, h.sound.history⟩
  exact ⟨he, shownOn_redraw hp he _ _⟩

theorem InStep.historyBack (hp : prompt.Printable) (h : e.InStep prompt s) :
    (e.historyBack prompt).1.InStep prompt (s.play (e.historyBack prompt).2) := by
  unfold Editor.historyBack
  split
  · split
    · exact h
    · exact h.replaceLine hp (h.sound.recall _) _
  · split
    · exact h
    · exact h.replaceLine hp (h.sound.recall _) _

theorem InStep.historyForward (hp : prompt.Printable) (h : e.InStep prompt s) :
    (e.historyForward prompt).1.InStep prompt (s.play (e.historyForward prompt).2) := by
  unfold Editor.historyForward
  split
  · exact h
  · split
    · exact h.replaceLine hp (h.sound.recall _) _
    · exact h.replaceLine hp (by simp [Text.Printable]) _

theorem InStep.interrupt (hp : prompt.Printable) (h : e.InStep prompt s) :
    (e.interrupt prompt).1.InStep prompt (s.play (e.interrupt prompt).2) := by
  obtain ⟨front, back, n, -, -, rfl⟩ := h.shown.exists_between h.sound
  have hmark : Text.Printable "^C" := by decide +kernel
  refine ⟨h.sound.resetLine, ?_⟩
  simp only [Editor.interrupt, play_write, type_printable hmark]
  exact shownOn_prompt hp isFresh_newline rfl rfl

theorem InStep.edit (hp : prompt.Printable) {press : Press}
    (hpress : ∀ t, press = .insert t → t.Printable) (h : e.InStep prompt s) :
    (e.edit prompt press).1.InStep prompt (s.play (e.edit prompt press).2) := by
  cases press with
  | backspace => exact ⟨h.sound.backspace, shownOn_backspace h.sound h.shown⟩
  | left | right | home | toEnd => exact ⟨h.sound.moveTo _, shownOn_moveTo _ h.sound h.shown⟩
  | up => exact h.historyBack hp
  | down => exact h.historyForward hp
  | interrupt => exact h.interrupt hp
  | clear => exact ⟨h.sound, shownOn_redraw hp h.sound [] []⟩
  | insert t =>
      have ht : t.Printable := hpress t rfl
      exact ⟨h.sound.insert ht, shownOn_insert ht h.sound h.shown⟩
  | enter | ignored => exact h

theorem printable_of_insert {key t : Text} (h : Press.ofKey key = .insert t) : t.Printable := by
  unfold Press.ofKey at h
  split at h <;> try cases h
  split at h
  · cases h
    rename_i hall
    exact List.all_eq_true.mp hall
  · cases h

/-- What a key leaves: an editor in step with the screen or, with a submitted line, an editor of an
empty line and a fresh row. -/
def Leaves (prompt : Text) (e : Editor) (s : Screen) : Option Text → Prop
  | none => e.InStep prompt s
  | some _ => e.Sound ∧ e.buffer = [] ∧ e.cursor = 0 ∧ s.IsFresh

theorem InStep.submit (hp : prompt.Printable) (h : e.InStep prompt s) :
    (e.submit prompt).1.Leaves prompt (s.play (e.submit prompt).2.1) (e.submit prompt).2.2 := by
  obtain ⟨front, back, n, -, -, rfl⟩ := h.shown.exists_between h.sound
  have hsound : (e.submit prompt).1.Sound := h.sound.submit
  unfold Editor.submit at hsound ⊢
  dsimp only at hsound ⊢
  split
  · exact ⟨h.sound.resetLine, shownOn_prompt hp isFresh_newline rfl rfl⟩
  · rename_i hline
    rw [if_neg hline] at hsound
    exact ⟨hsound, rfl, rfl, isFresh_newline⟩

theorem InStep.handle (hp : prompt.Printable) (h : e.InStep prompt s) (key : Text) :
    (e.handle prompt key).1.Leaves prompt (s.play (e.handle prompt key).2.1)
      (e.handle prompt key).2.2 := by
  unfold Editor.handle
  split
  · exact h.submit hp
  · refine h.edit hp ?_
    intro t ht
    exact printable_of_insert ht

/-! ## Sittings -/

/-- An editor and its screen at some moment of a sitting that starts with a history. A prompt is
shown on a fresh row at first, and again after the answer of a submitted line. -/
inductive Attended (history : List Text) : Text → Editor → Screen → Prop
  | opened {prompt : Text} {s : Screen} (hp : prompt.Printable) (hs : s.IsFresh) :
      Attended history prompt { history } (s.play [.write prompt])
  | pressed {prompt : Text} {e e' : Editor} {s : Screen} {key : Text} {strokes : List Stroke}
      (h : Attended history prompt e s) (hkey : e.handle prompt key = (e', strokes, none)) :
      Attended history prompt e' (s.play strokes)
  | answered {prompt prompt' line : Text} {e e' : Editor} {s s' : Screen} {key : Text}
      {strokes : List Stroke} (h : Attended history prompt e s)
      (hkey : e.handle prompt key = (e', strokes, some line)) (hp : prompt'.Printable)
      (hs : s'.IsFresh) :
      Attended history prompt' e' (s'.play [.write prompt'])

variable {history : List Text}

theorem Attended.printable_prompt (h : Attended history prompt e s) : prompt.Printable := by
  induction h with
  | opened hp hs => exact hp
  | pressed h hkey ih => exact ih
  | answered h hkey hp hs ih => exact hp

theorem Attended.inStep (hh : ∀ entry ∈ history, entry.Printable)
    (h : Attended history prompt e s) : e.InStep prompt s := by
  induction h with
  | opened hp hs => exact ⟨sound_init hh rfl rfl, shownOn_prompt hp hs rfl rfl⟩
  | pressed h hkey ih =>
      rename_i key strokes
      have hleaves := ih.handle h.printable_prompt key
      rw [hkey] at hleaves
      exact hleaves
  | answered h hkey hp hs ih =>
      rename_i key strokes
      have hleaves := ih.handle h.printable_prompt key
      rw [hkey] at hleaves
      obtain ⟨hsound, hb, hc, -⟩ := hleaves
      exact ⟨hsound, shownOn_prompt hp hs hb hc⟩

/-- At every moment of a sitting the row of the screen reads as the prompt and the line, with the
cursor in its place; and a key that submits a line leaves a fresh row. -/
theorem Attended.shownOn (hh : ∀ entry ∈ history, entry.Printable)
    (h : Attended history prompt e s) :
    e.ShownOn prompt s ∧ ∀ key e' strokes line,
      e.handle prompt key = (e', strokes, some line) → (s.play strokes).IsFresh := by
  have hstep := h.inStep hh
  refine ⟨hstep.shown, ?_⟩
  intro key e' strokes line hkey
  have hleaves := hstep.handle h.printable_prompt key
  rw [hkey] at hleaves
  exact hleaves.2.2.2

/-- The entry `ls` is recalled after the prompt, with the cursor at its end. -/
theorem shownOn_recalled :
    ShownOn "> " { buffer := "ls", cursor := 2, history := ["ls"], recalled := some 0 }
      (({} : Screen).play [.write "> ", .write "\r\x1b[2K> ls"]) := by
  have hprompt : Text.Printable "> " := by decide +kernel
  have hhistory : ∀ entry ∈ [("ls" : Text)], Text.Printable entry := by decide +kernel
  have hkey : handle "> " "\x1b[A" { history := ["ls"] }
      = ({ buffer := "ls", cursor := 2, history := ["ls"], recalled := some 0 },
        [.write "\r\x1b[2K> ls"], none) := by decide +kernel
  have hopened : Attended ["ls"] "> " { history := ["ls"] } (({} : Screen).play [.write "> "]) :=
    .opened hprompt (isFresh_between 0)
  exact ((hopened.pressed hkey).shownOn hhistory).1

end Editor

end PipeShell
