import PipeShell.Terminal.Editor

/-!
# Ways through the history

The entries of the history are places, and behind the last one is the place of a line that recalls
none. Up and Down move from place to place and stop at the ends, where they leave the line as it is.
Keys that edit the line stay at its place.
-/

namespace PipeShell

/-- A key, and the prompt that is shown when it comes. -/
structure Keystroke where
  prompt : Text
  key : Text

namespace Editor

/-- The key for the entry before. -/
def upKey : Text := "\x1b[A"

/-- The key for the entry after. -/
def downKey : Text := "\x1b[B"

/-- The key moves through the history. -/
def IsMove (key : Text) : Prop :=
  key = upKey ∨ key = downKey

instance (key : Text) : Decidable (IsMove key) :=
  inferInstanceAs (Decidable (_ ∨ _))

/-- The key neither submits nor abandons the line, nor moves through the history. Typing, erasing and
moving the cursor are done by such keys. -/
def StaysInLine (key : Text) : Prop :=
  Press.ofKey key ∉ [.enter, .up, .down, .interrupt]

instance (key : Text) : Decidable (StaysInLine key) :=
  inferInstanceAs (Decidable (¬_))

/-- The editor after keys that are handled one after another. -/
def after (ks : List Keystroke) (e : Editor) : Editor :=
  ks.foldl (fun e k => (e.handle k.prompt k.key).1) e

/-- The editor that has just come to an entry of the history or, behind the last one, to an empty
line. -/
def atEntry (history : List Text) (i : Nat) : Editor :=
  if hi : i < history.length then
    { buffer := history[i], cursor := history[i].length, history, recalled := some i }
  else { history }

/-- The move has nowhere to go. -/
def Stuck (key : Text) (e : Editor) : Prop :=
  key = upKey ∧ e.recalled = some 0 ∨ key = downKey ∧ e.recalled = none

instance (key : Text) (e : Editor) : Decidable (Stuck key e) :=
  inferInstanceAs (Decidable (_ ∨ _))

/-- The recalled entry is one of the history. -/
def Placed (e : Editor) : Prop :=
  ∀ i ∈ e.recalled, i < e.history.length

/-- The place of the recalled entry, or the one behind the last entry. -/
def place (e : Editor) : Nat :=
  e.recalled.getD e.history.length

/-- The place after a key, in a history of `n` entries. -/
def nextPlace (n i : Nat) (key : Text) : Nat :=
  if key = upKey then i - 1 else if key = downKey then min (i + 1) n else i

variable {e : Editor} {prompt key : Text} {history : List Text} {i j k : Nat}

/-! ## Places -/

theorem atEntry_of_lt (hi : i < history.length) :
    atEntry history i
      = { buffer := history[i], cursor := history[i].length, history, recalled := some i } :=
  dif_pos hi

theorem atEntry_of_le (hi : history.length ≤ i) : atEntry history i = { history } :=
  dif_neg (Nat.not_lt.mpr hi)

@[simp] theorem history_atEntry : (atEntry history i).history = history := by
  unfold atEntry
  split <;> rfl

theorem atEntry_min (history : List Text) (i : Nat) :
    atEntry history (min i history.length) = atEntry history i := by
  by_cases hi : i < history.length
  · rw [Nat.min_eq_left (Nat.le_of_lt hi)]
  · have hle := Nat.not_lt.mp hi
    rw [Nat.min_eq_right hle, atEntry_of_le (Nat.le_refl _), atEntry_of_le hle]

theorem recalled_atEntry :
    (atEntry history i).recalled = if i < history.length then some i else none := by
  unfold atEntry
  split <;> rfl

@[simp] theorem place_atEntry : (atEntry history i).place = min i history.length := by
  rw [place, recalled_atEntry, history_atEntry]
  split
  · simp only [Option.getD_some]
    omega
  · simp only [Option.getD_none]
    omega

theorem placed_atEntry : (atEntry history i).Placed := by
  intro j hj
  rw [recalled_atEntry] at hj
  split at hj
  · rename_i hi
    obtain rfl : i = j := Option.some.inj hj
    rwa [history_atEntry]
  · cases hj

theorem placed_of_none (h : e.recalled = none) : e.Placed := by
  simp [Placed, h]

theorem place_of_none (h : e.recalled = none) : e.place = e.history.length := by
  rw [place, h, Option.getD_none]

/-- The place says what is recalled. -/
theorem Placed.recalled_eq (he : e.Placed) :
    e.recalled = if e.place < e.history.length then some e.place else none := by
  cases hr : e.recalled with
  | none => simp [place, hr]
  | some i => simp [place, hr, he i hr]

theorem Placed.place_le (he : e.Placed) : e.place ≤ e.history.length := by
  cases hr : e.recalled with
  | none => simp [place, hr]
  | some i => simpa [place, hr] using Nat.le_of_lt (he i hr)

theorem nextPlace_upKey (n i : Nat) : nextPlace n i upKey = i - 1 :=
  if_pos rfl

theorem nextPlace_downKey (n i : Nat) : nextPlace n i downKey = min (i + 1) n := by
  rw [nextPlace, if_neg (by decide), if_pos rfl]

theorem nextPlace_le {n : Nat} (hi : i ≤ n) (key : Text) : nextPlace n i key ≤ n := by
  unfold nextPlace
  split
  · omega
  · split <;> omega

/-! ## Moves -/

theorem recallEntry_eq (hi : i < e.history.length) :
    (e.recallEntry prompt i).1 = atEntry e.history i := by
  rw [atEntry_of_lt hi]
  simp [recallEntry, replaceLine, hi]

theorem fst_historyBack (he : e.Placed) (prompt : Text) :
    (e.historyBack prompt).1
      = if e.place = 0 then e else atEntry e.history (e.place - 1) := by
  unfold historyBack place
  cases hr : e.recalled with
  | none =>
      by_cases hh : e.history = []
      · simp [hh]
      · have hlast : e.history.length - 1 < e.history.length := by
          have hpos := List.length_pos_iff.mpr hh
          omega
        simp [hh, recallEntry_eq hlast]
  | some i =>
      have hi := he i hr
      have hh : e.history ≠ [] := List.ne_nil_of_length_pos (by omega)
      by_cases hzero : i = 0
      · simp [hzero]
      · have hbefore : i - 1 < e.history.length := by omega
        simp [hh, hzero, recallEntry_eq hbefore]

theorem fst_historyForward (he : e.Placed) (prompt : Text) :
    (e.historyForward prompt).1
      = if e.place = e.history.length then e else atEntry e.history (e.place + 1) := by
  unfold historyForward place
  cases hr : e.recalled with
  | none => simp
  | some i =>
      have hi := he i hr
      have hne : i ≠ e.history.length := by omega
      by_cases hafter : i + 1 < e.history.length
      · simp [hne, hafter, recallEntry_eq hafter]
      · simp [hne, hafter, atEntry_of_le (Nat.not_lt.mp hafter), replaceLine]

theorem handle_upKey (prompt : Text) : (e.handle prompt upKey).1 = (e.historyBack prompt).1 :=
  rfl

theorem handle_downKey (prompt : Text) :
    (e.handle prompt downKey).1 = (e.historyForward prompt).1 :=
  rfl

/-- What is typed or erased, and where the cursor goes, does not matter for the place. -/
theorem handle_staysInLine (hkey : StaysInLine key) (prompt : Text) :
    (e.handle prompt key).1.history = e.history ∧ (e.handle prompt key).1.recalled = e.recalled := by
  unfold StaysInLine at hkey
  unfold handle
  cases hp : Press.ofKey key with
  | enter | up | down | interrupt => simp [hp] at hkey
  | backspace =>
      simp only [edit, backspace]
      split <;> exact ⟨rfl, rfl⟩
  | left | right | home | toEnd =>
      simp only [edit, moveTo]
      split <;> exact ⟨rfl, rfl⟩
  | clear | insert | ignored => exact ⟨rfl, rfl⟩

theorem not_isMove_of_staysInLine (hkey : StaysInLine key) : ¬IsMove key := by
  rintro (rfl | rfl) <;> exact hkey (by decide)

theorem nextPlace_of_staysInLine (hkey : StaysInLine key) (n i : Nat) : nextPlace n i key = i := by
  obtain ⟨hup, hdown⟩ := not_or.mp (not_isMove_of_staysInLine hkey)
  rw [nextPlace, if_neg hup, if_neg hdown]

/-- A move comes to the entry at the next place, if there is one, and else does nothing. -/
theorem handle_move (he : e.Placed) (hkey : IsMove key) (prompt : Text) :
    (e.handle prompt key).1
      = if nextPlace e.history.length e.place key = e.place then e
        else atEntry e.history (nextPlace e.history.length e.place key) := by
  have hle := he.place_le
  rcases hkey with rfl | rfl
  · rw [handle_upKey, fst_historyBack he, nextPlace_upKey]
    by_cases hfirst : e.place = 0
    · rw [if_pos hfirst, if_pos (by omega)]
    · rw [if_neg hfirst, if_neg (by omega)]
  · rw [handle_downKey, fst_historyForward he, nextPlace_downKey]
    by_cases hlast : e.place = e.history.length
    · rw [if_pos hlast, if_pos (by omega)]
    · rw [if_neg hlast, if_neg (by omega), Nat.min_eq_left (by omega)]

theorem stuck_upKey : Stuck upKey e ↔ e.recalled = some 0 := by
  simp [Stuck, show upKey ≠ downKey by decide]

theorem stuck_downKey : Stuck downKey e ↔ e.recalled = none := by
  simp [Stuck, show downKey ≠ upKey by decide]

/-- A move is stuck when its place is the next one already. -/
theorem Placed.stuck_iff (he : e.Placed) (hhistory : e.history ≠ []) (hkey : IsMove key) :
    Stuck key e ↔ nextPlace e.history.length e.place key = e.place := by
  have hpos := List.length_pos_iff.mpr hhistory
  rcases hkey with rfl | rfl
  · rw [stuck_upKey, nextPlace_upKey, place]
    cases hr : e.recalled with
    | none =>
        simp only [Option.getD_none, reduceCtorEq, false_iff]
        omega
    | some i =>
        simp only [Option.getD_some, Option.some.injEq]
        omega
  · rw [stuck_downKey, nextPlace_downKey, place]
    cases hr : e.recalled with
    | none =>
        simp only [Option.getD_none, true_iff]
        omega
    | some i =>
        have hi := he i hr
        simp only [Option.getD_some, reduceCtorEq, false_iff]
        omega

theorem handle_placed (he : e.Placed) (hkey : IsMove key ∨ StaysInLine key) (prompt : Text) :
    (e.handle prompt key).1.Placed ∧ (e.handle prompt key).1.history = e.history
      ∧ (e.handle prompt key).1.place = nextPlace e.history.length e.place key := by
  rcases hkey with hkey | hkey
  · rw [handle_move he hkey]
    split
    · rename_i hsame
      exact ⟨he, rfl, hsame.symm⟩
    · have hle := nextPlace_le he.place_le key
      exact ⟨placed_atEntry, history_atEntry, by rw [place_atEntry, Nat.min_eq_left hle]⟩
  · obtain ⟨hhistory, hrecalled⟩ := handle_staysInLine (e := e) hkey prompt
    refine ⟨?_, hhistory, ?_⟩
    · rw [Placed, hrecalled, hhistory]
      exact he
    · rw [place, hrecalled, hhistory, nextPlace_of_staysInLine hkey]
      rfl

/-! ## Runs of keys -/

theorem after_concat (front : List Keystroke) (last : Keystroke) (e : Editor) :
    e.after (front ++ [last]) = ((e.after front).handle last.prompt last.key).1 := by
  rw [after, List.foldl_append]
  rfl

/-- The place after keys that move or stay in the line is the one that the moves alone lead to. -/
theorem after_placed (he : e.Placed) {ks : List Keystroke}
    (hks : ∀ s ∈ ks, IsMove s.key ∨ StaysInLine s.key) :
    (e.after ks).Placed ∧ (e.after ks).history = e.history
      ∧ (e.after ks).place
        = ((ks.map Keystroke.key).filter (IsMove ·)).foldl (nextPlace e.history.length) e.place := by
  induction ks generalizing e with
  | nil => exact ⟨he, rfl, rfl⟩
  | cons s ks ih =>
      obtain ⟨hplaced, hhistory, hplace⟩ := handle_placed he (hks s (by simp)) s.prompt
      obtain ⟨hplaced', hhistory', hplace'⟩ := ih hplaced fun s' hs' => hks s' (by simp [hs'])
      refine ⟨hplaced', hhistory'.trans hhistory, hplace'.trans ?_⟩
      rw [hhistory, hplace, List.map_cons]
      rcases hks s (by simp) with hkey | hkey
      · rw [List.filter_cons_of_pos (by simpa using hkey), List.foldl_cons]
      · rw [List.filter_cons_of_neg (by simpa using not_isMove_of_staysInLine hkey),
          nextPlace_of_staysInLine hkey]

theorem foldl_upKey (n i k : Nat) : (List.replicate k upKey).foldl (nextPlace n) i = i - k := by
  induction k generalizing i with
  | zero => rfl
  | succ k ih =>
      rw [List.replicate_succ, List.foldl_cons, ih, nextPlace_upKey]
      omega

theorem foldl_downKey {n i : Nat} (hi : i ≤ n) (j : Nat) :
    (List.replicate j downKey).foldl (nextPlace n) i = min (i + j) n := by
  induction j generalizing i with
  | zero => exact (Nat.min_eq_left hi).symm
  | succ j ih =>
      rw [List.replicate_succ, List.foldl_cons, nextPlace_downKey, ih (Nat.min_le_right _ _)]
      omega

theorem foldl_ups_downs (n k j : Nat) :
    (List.replicate k upKey ++ List.replicate j downKey).foldl (nextPlace n) n = min (n - k + j) n := by
  rw [List.foldl_append, foldl_upKey, foldl_downKey (Nat.sub_le n k)]

/-- From an entry that was just recalled, moves alone lead to an entry that was just recalled. -/
theorem after_atEntry {ks : List Keystroke} (hks : ∀ s ∈ ks, IsMove s.key)
    (hi : i ≤ history.length) :
    (atEntry history i).after ks
      = atEntry history ((ks.map Keystroke.key).foldl (nextPlace history.length) i) := by
  induction ks generalizing i with
  | nil => rfl
  | cons s ks ih =>
      have hstep : ((atEntry history i).handle s.prompt s.key).1
          = atEntry history (nextPlace history.length i s.key) := by
        rw [handle_move placed_atEntry (hks s (by simp)), history_atEntry, place_atEntry,
          Nat.min_eq_left hi]
        split
        · rename_i hsame
          rw [hsame]
        · rfl
      exact (congrArg (after ks) hstep).trans
        (ih (fun s' hs' => hks s' (by simp [hs'])) (nextPlace_le hi s.key))

theorem filter_isMove {ks : List Keystroke} (hks : ∀ s ∈ ks, IsMove s.key) :
    (ks.map Keystroke.key).filter (IsMove ·) = ks.map Keystroke.key := by
  refine List.filter_eq_self.mpr fun key hkey => ?_
  obtain ⟨s, hs, rfl⟩ := List.mem_map.mp hkey
  simpa using hks s hs

/-- The first move back recalls the last entry, and from there nothing is edited. -/
theorem after_of_moves (hrecalled : e.recalled = none) (hhistory : e.history ≠ []) (hk : 0 < k)
    {ks : List Keystroke} (hks : ∀ s ∈ ks, IsMove s.key)
    (hkeys : ks.map Keystroke.key = List.replicate k upKey ++ List.replicate j downKey) :
    e.after ks = atEntry e.history (e.history.length - k + j) := by
  obtain ⟨k, rfl⟩ := Nat.exists_eq_succ_of_ne_zero (Nat.ne_of_gt hk)
  rw [List.replicate_succ, List.cons_append] at hkeys
  obtain ⟨s, ks, rfl, hs, hrest⟩ := List.map_eq_cons_iff.mp hkeys
  have hpos := List.length_pos_iff.mpr hhistory
  have hfirst : (e.handle s.prompt s.key).1 = atEntry e.history (e.history.length - 1) := by
    rw [hs, handle_upKey, fst_historyBack (placed_of_none hrecalled), place_of_none hrecalled,
      if_neg (by omega)]
  calc e.after (s :: ks)
      = (atEntry e.history (e.history.length - 1)).after ks := congrArg (after ks) hfirst
    _ = atEntry e.history (min (e.history.length - 1 - k + j) e.history.length) := by
        rw [after_atEntry (fun s hs => hks s (by simp [hs])) (Nat.sub_le _ _), hrest,
          List.foldl_append, foldl_upKey, foldl_downKey (by omega)]
    _ = atEntry e.history (e.history.length - (k + 1) + j) := by
        rw [atEntry_min, Nat.sub_sub, Nat.add_comm 1 k]

/-- From a line that recalls nothing, `k` moves back and then `j` moves forward lead to the entry with
the number `n - k + j` if there is one, and to the empty line otherwise. Whatever is edited in between,
the place is the same and the history is kept, and the last move brings its entry unedited unless it
is stuck: then the line stays as it was edited. -/
theorem after_ups_downs (hrecalled : e.recalled = none) (hhistory : e.history ≠ []) (hk : 0 < k)
    (j : Nat) {ks : List Keystroke} (hks : ∀ s ∈ ks, IsMove s.key ∨ StaysInLine s.key)
    (hmoves : (ks.map Keystroke.key).filter (IsMove ·)
      = List.replicate k upKey ++ List.replicate j downKey) :
    (e.after ks).history = e.history
      ∧ (e.after ks).recalled = (if e.history.length - k + j < e.history.length
          then some (e.history.length - k + j) else none)
      ∧ ((∀ s ∈ ks, IsMove s.key) →
          e.after ks = atEntry e.history (e.history.length - k + j))
      ∧ ∀ front last, ks = front ++ [last] → IsMove last.key →
          e.after ks = if Stuck last.key (e.after front) then e.after front
            else atEntry e.history (e.history.length - k + j) := by
  have hplaced := placed_of_none hrecalled
  obtain ⟨hafter, hkept, hplace⟩ := after_placed hplaced hks
  rw [hmoves, place_of_none hrecalled, foldl_ups_downs] at hplace
  refine ⟨hkept, ?_, fun honly => ?_, ?_⟩
  · rw [hafter.recalled_eq, hkept, hplace]
    by_cases hi : e.history.length - k + j < e.history.length
    · rw [Nat.min_eq_left (Nat.le_of_lt hi)]
    · rw [Nat.min_eq_right (Nat.not_lt.mp hi), if_neg (Nat.lt_irrefl _), if_neg hi]
  · exact after_of_moves hrecalled hhistory hk honly ((filter_isMove honly).symm.trans hmoves)
  -- A move is stuck when it leads to the place that the keys before it led to.
  · rintro front last rfl hlast
    have hbefore : ∀ s ∈ front, IsMove s.key ∨ StaysInLine s.key :=
      fun s hs => hks s (List.mem_append_left _ hs)
    obtain ⟨hfront, hkept', -⟩ := after_placed hplaced hbefore
    have hstuck := hfront.stuck_iff (hkept' ▸ hhistory) hlast
    obtain ⟨-, -, hnext⟩ := handle_placed hfront (Or.inl hlast) last.prompt
    rw [after_concat] at hplace ⊢
    rw [hplace] at hnext
    rw [← hnext] at hstuck
    rw [handle_move hfront hlast, ← hnext, hkept', atEntry_min]
    by_cases h : Stuck last.key (e.after front)
    · rw [if_pos h, if_pos (hstuck.mp h)]
    · rw [if_neg h, if_neg fun hsame => h (hstuck.mpr hsame)]

/-- Two moves back, an edit, and one more move back. -/
def upsAroundEdit : List Keystroke :=
  [⟨"$ ", upKey⟩, ⟨"$ ", upKey⟩, ⟨"$ ", "x"⟩, ⟨"$ ", upKey⟩]

/-- In a history of two entries the third move back is stuck, and the line stays as it was edited at the
first entry. A move forward then leads to the second entry. -/
theorem after_ups_downs_edited :
    after upsAroundEdit { history := ["a", "b"] }
        = { buffer := "ax", cursor := 2, history := ["a", "b"], recalled := some 0 }
      ∧ after (upsAroundEdit ++ [⟨"$ ", downKey⟩]) { history := ["a", "b"] }
        = atEntry ["a", "b"] 1 := by
  have hups : ∀ s ∈ upsAroundEdit, IsMove s.key ∨ StaysInLine s.key := by decide
  have hdown : ∀ s ∈ upsAroundEdit ++ [⟨"$ ", downKey⟩], IsMove s.key ∨ StaysInLine s.key := by
    decide
  obtain ⟨-, -, -, hafter⟩ := after_ups_downs (e := { history := ["a", "b"] }) (k := 3) rfl
    (by decide) (by decide) 0 hups (by decide +kernel)
  obtain ⟨-, -, -, hafter'⟩ := after_ups_downs (e := { history := ["a", "b"] }) (k := 3) rfl
    (by decide) (by decide) 1 hdown (by decide +kernel)
  have hstuck := hafter [⟨"$ ", upKey⟩, ⟨"$ ", upKey⟩, ⟨"$ ", "x"⟩] ⟨"$ ", upKey⟩ rfl (by decide)
  have hfree := hafter' upsAroundEdit ⟨"$ ", downKey⟩ rfl (by decide)
  rw [if_pos (by decide +kernel)] at hstuck
  rw [if_neg (by decide +kernel)] at hfree
  exact ⟨hstuck.trans (by decide +kernel), hfree⟩

end Editor

end PipeShell
