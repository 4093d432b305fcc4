import PipeShell.Proofs.Terminal.Echo
import PipeShell.Proofs.Terminal.Recall
import PipeShell.Proofs.Terminal.Replay

/-!
# What keys make of an editor

Whatever keys come, the cursor stays in the line, the recalled entry is one of the history, and no
control character gets into the line or into the history. The history only grows, by the lines that
are submitted.
-/

namespace PipeShell

namespace Text

/-- The control characters are the first 32 characters, and those from DEL up to the no-break
space. -/
def IsControl (c : Char) : Prop :=
  c.toNat < 32 ∨ 127 ≤ c.toNat ∧ c.toNat < 160

/-- A control character stands before the first place or between the second and the third one where
printability changes. -/
theorem isPrintable_of_isControl {c : Char} (hc : IsControl c) : isPrintable c = false := by
  unfold isPrintable printableFlips
  rcases hc with hlow | ⟨hmin, hmax⟩
  · rw [inFlips, if_pos hlow]
  · rw [inFlips, if_neg (by omega), inFlips, if_neg (by omega), inFlips, if_pos (by omega)]
    rfl

theorem Printable.not_isControl {t : Text} (ht : t.Printable) : ∀ c ∈ t, ¬IsControl c := by
  intro c hc hcontrol
  have hprintable := ht c hc
  rw [isPrintable_of_isControl hcontrol] at hprintable
  cases hprintable

end Text

namespace Editor

/-- The editor is sound, recalls an entry of its history if it recalls one, and has recorded no blank
line. -/
structure WellFormed (e : Editor) : Prop extends Sound e where
  placed : e.Placed
  filled : ∀ entry ∈ e.history, Text.strip entry ≠ []

/-- What the keys enter into the history. -/
def recorded : List Keystroke → Editor → List Text
  | [], _ => []
  | k :: ks, e => (e.recorded? k.key).toList ++ recorded ks (e.handle k.prompt k.key).1

variable {e : Editor} {prompt key : Text} {history : List Text}

/-! ## One key -/

theorem wellFormed_init (hprintable : ∀ entry ∈ history, entry.Printable)
    (hfilled : ∀ entry ∈ history, Text.strip entry ≠ []) : WellFormed { history } where
  toSound := sound_init hprintable rfl rfl
  placed := placed_of_none rfl
  filled := hfilled

theorem WellFormed.atEntry (he : e.WellFormed) (i : Nat) : (atEntry e.history i).WellFormed := by
  refine ⟨?_, placed_atEntry, by rw [history_atEntry]; exact he.filled⟩
  unfold Editor.atEntry
  split
  · exact ⟨Nat.le_refl _, he.history _ (List.getElem_mem _), he.history⟩
  · exact sound_init he.history rfl rfl

theorem WellFormed.historyBack (he : e.WellFormed) : (e.historyBack prompt).1.WellFormed := by
  rw [fst_historyBack he.placed]
  split
  · exact he
  · exact he.atEntry _

theorem WellFormed.historyForward (he : e.WellFormed) :
    (e.historyForward prompt).1.WellFormed := by
  rw [fst_historyForward he.placed]
  split
  · exact he
  · exact he.atEntry _

theorem WellFormed.submit (he : e.WellFormed) : (e.submit prompt).1.WellFormed := by
  refine ⟨he.toSound.submit, ?_, ?_⟩
  all_goals
    unfold Editor.submit
    dsimp only
  · split <;> exact placed_of_none rfl
  · split
    · exact he.filled
    · rename_i hline
      intro entry hentry
      rcases List.mem_append.mp hentry with hold | hnew
      · exact he.filled entry hold
      · exact List.mem_singleton.mp hnew ▸ hline

theorem sound_handle_of_staysInLine (hkey : StaysInLine key) (he : e.Sound) :
    (e.handle prompt key).1.Sound := by
  unfold StaysInLine at hkey
  unfold handle
  cases hp : Press.ofKey key with
  | enter | up | down | interrupt => simp [hp] at hkey
  | backspace => exact he.backspace
  | left | right | home | toEnd => exact he.moveTo _
  | insert t => exact he.insert (printable_of_insert hp)
  | clear | ignored => exact he

theorem WellFormed.handle_of_staysInLine (hkey : StaysInLine key) (he : e.WellFormed) :
    (e.handle prompt key).1.WellFormed := by
  obtain ⟨hhistory, hrecalled⟩ := handle_staysInLine (e := e) hkey prompt
  refine ⟨sound_handle_of_staysInLine hkey he.toSound, ?_, ?_⟩
  · rw [Placed, hrecalled, hhistory]
    exact he.placed
  · rw [hhistory]
    exact he.filled

/-- Every key keeps an editor well formed. -/
theorem WellFormed.handle (he : e.WellFormed) (prompt key : Text) :
    (e.handle prompt key).1.WellFormed := by
  cases hp : Press.ofKey key with
  | enter =>
      rw [handle_of_isEnter (ofKey_eq_enter.mp hp)]
      exact he.submit
  | up =>
      rw [Editor.handle, hp]
      exact he.historyBack
  | down =>
      rw [Editor.handle, hp]
      exact he.historyForward
  | interrupt =>
      rw [Editor.handle, hp]
      exact wellFormed_init he.history he.filled
  | backspace | left | right | home | toEnd | clear | insert | ignored =>
      exact he.handle_of_staysInLine (by simp [StaysInLine, hp])

/-! ## Runs of keys -/

theorem WellFormed.after (he : e.WellFormed) (ks : List Keystroke) : (e.after ks).WellFormed := by
  induction ks generalizing e with
  | nil => exact he
  | cons k ks ih => exact ih (he.handle k.prompt k.key)

theorem after_append (front back : List Keystroke) (e : Editor) :
    e.after (front ++ back) = (e.after front).after back :=
  List.foldl_append

theorem history_after (ks : List Keystroke) (e : Editor) :
    (e.after ks).history = e.history ++ recorded ks e := by
  induction ks generalizing e with
  | nil => exact (List.append_nil _).symm
  | cons k ks ih =>
      calc (e.after (k :: ks)).history
          = (e.handle k.prompt k.key).1.history ++ recorded ks (e.handle k.prompt k.key).1 := ih _
        _ = e.history ++ ((e.recorded? k.key).toList
              ++ recorded ks (e.handle k.prompt k.key).1) := by
            rw [(handle_records k.prompt k.key e).1, List.append_assoc]

/-- From a history of lines that are printable and not blank, any keys lead to a well-formed editor:
the cursor stands in the line, what is recalled is in the history, and nothing that is in the line or in
the history is a control character. The history goes on from the one before, however its entries are
recalled and edited: Enter adds the line as it stands, unless it is blank, and gives the stripped line.
No other key adds or gives anything. -/
theorem after_wellFormed (hprintable : ∀ entry ∈ history, entry.Printable)
    (hfilled : ∀ entry ∈ history, Text.strip entry ≠ []) (ks : List Keystroke) :
    (after ks { history }).WellFormed
      ∧ (∀ t ∈ (after ks { history }).buffer :: (after ks { history }).history,
          ∀ c ∈ t, ¬Text.IsControl c)
      ∧ (after ks { history }).history = history ++ recorded ks { history }
      ∧ (∀ more, (after ks { history }).history <+: (after (ks ++ more) { history }).history)
      ∧ ∀ prompt key, ((after ks { history }).handle prompt key).1.history
            = (after ks { history }).history
              ++ (if IsEnter key ∧ Text.strip (after ks { history }).buffer ≠ [] then
                  [(after ks { history }).buffer] else [])
          ∧ ((after ks { history }).handle prompt key).2.2
            = if IsEnter key ∧ Text.strip (after ks { history }).buffer ≠ [] then
                some (Text.strip (after ks { history }).buffer) else none := by
  have he := (wellFormed_init hprintable hfilled).after ks
  refine ⟨he, ?_, history_after ks _, ?_, ?_⟩
  · intro t ht
    rcases List.mem_cons.mp ht with rfl | hentry
    · exact he.buffer.not_isControl
    · exact (he.history t hentry).not_isControl
  · intro more
    rw [after_append, history_after more]
    exact List.prefix_append _ _
  · intro prompt key
    obtain ⟨hhistory, hline⟩ := handle_records prompt key (after ks { history })
    rw [hhistory, hline, recorded?]
    split <;> exact ⟨rfl, rfl⟩

/-- Keys that recall an entry and change it. -/
def changing : List Keystroke :=
  [⟨"$ ", upKey⟩, ⟨"$ ", "x y "⟩]

/-- The changed line is recorded behind the entry, which stays as it was. -/
theorem after_wellFormed_changing :
    (after changing { history := ["ls"] }).handle "$ " "\r"
        = ({ history := ["ls", "lsx y "] }, [newline], some ("lsx y" : Text))
      ∧ ((after changing { history := ["ls"] }).handle "$ " "\r").2.2
        = some (Text.strip (after changing { history := ["ls"] }).buffer) := by
  have hprintable : ∀ entry ∈ (["ls"] : List Text), entry.Printable := by decide +kernel
  obtain ⟨-, -, -, -, hstep⟩ := after_wellFormed hprintable (by decide +kernel) changing
  obtain ⟨-, hline⟩ := hstep "$ " "\r"
  rw [if_pos (by decide +kernel)] at hline
  exact ⟨by decide +kernel, hline⟩

end Editor

end PipeShell
