import PipeShell.Proofs.Args.Keys

/-!
# Switches

Flags without a value set keys to "yes". Which keys they set depends on which of them stand among
the tokens, and not on where or how often they do.
-/

namespace PipeShell.Args

variable {args other : Args} {key : Key} {tokens tokens' : List Text}

/-! ## Records as maps -/

/-- The records have the same value under every key. -/
def SameMap (args other : Args) : Prop :=
  ∀ key, args.get? key = other.get? key

theorem get?_set (key : Key) (value : Value) (args : Args) (asked : Key) :
    (args.set key value).get? asked = if asked = key then some value else args.get? asked := by
  split
  · rename_i h
    rw [h, get?_set_self]
  · rename_i h
    exact get?_set_of_ne h value args

/-! ## Slots -/

theorem fill_nil (keys : List Key) (args : Args) : fill keys [] args = args := by
  cases keys <;> rfl

theorem get?_fill_congr (h : args.get? key = other.get? key) (keys : List Key) (ts : List Text) :
    (fill keys ts args).get? key = (fill keys ts other).get? key := by
  induction keys generalizing ts args other with
  | nil => simpa [fill] using h
  | cons slot keys ih =>
      cases ts with
      | nil => simpa [fill] using h
      | cons t ts =>
          rw [fill, fill]
          exact ih (by rw [get?_set, get?_set, h]) ts

theorem SameMap.fill (h : args.SameMap other) (keys : List Key) (ts : List Text) :
    (fill keys ts args).SameMap (fill keys ts other) :=
  fun key => get?_fill_congr (h key) keys ts

theorem get?_fill_self {keys : List Key} (h : key ∉ keys) (ts : List Text) (args : Args) :
    (fill (key :: keys) ts args).get? key = (ts.head?.map Value.text).or (args.get? key) := by
  cases ts with
  | nil => rw [fill_nil]; rfl
  | cons t ts => rw [fill, get?_fill h, get?_set_self]; rfl

theorem get?_fill_tail {slot : Key} (h : key ≠ slot) (keys : List Key) (ts : List Text)
    (args : Args) :
    (fill (slot :: keys) ts args).get? key = (fill keys ts.tail args).get? key := by
  cases ts with
  | nil => rw [fill_nil, List.tail_nil, fill_nil]
  | cons t ts => rw [fill, List.tail_cons, get?_fill_congr (get?_set_of_ne h _ _)]

/-! ## Switches of a table -/

/-- The record after one more token, which sets its key to "yes" if it is a switch. -/
def switch (table : List (Text × Key)) (args : Args) (t : Text) : Args :=
  match table.lookup t with
  | some key => args.set key (.flag true)
  | none => args

/-- Some switch for the key stands among the tokens. -/
def Switched (table : List (Text × Key)) (tokens : List Text) (key : Key) : Prop :=
  ∃ t ∈ tokens, table.lookup t = some key

instance (table : List (Text × Key)) (tokens : List Text) (key : Key) :
    Decidable (Switched table tokens key) :=
  inferInstanceAs (Decidable (∃ t ∈ tokens, table.lookup t = some key))

variable {table : List (Text × Key)} {t : Text}

theorem get?_switch (table : List (Text × Key)) (args : Args) (t : Text) (key : Key) :
    (switch table args t).get? key
      = if table.lookup t = some key then some (.flag true) else args.get? key := by
  unfold switch
  cases table.lookup t with
  | none => simp
  | some found => simp [get?_set, eq_comm]

@[simp] theorem not_switched_nil : ¬Switched table [] key := by
  simp [Switched]

theorem switched_cons :
    Switched table (t :: tokens) key ↔ table.lookup t = some key ∨ Switched table tokens key := by
  simp [Switched]

theorem not_switched (h : key ∉ table.map (·.2)) : ¬Switched table tokens key :=
  fun ⟨_, _, ht⟩ => ne_of_lookup h ht rfl

theorem mem_of_lookup (h : table.lookup t = some key) : t ∈ table.map Prod.fst := by
  obtain ⟨front, back, rfl, -⟩ := List.lookup_eq_some_iff.mp h
  simp

/-- A table that lists no token twice finds what it lists. -/
theorem lookup_eq_some_iff (h : (table.map Prod.fst).Nodup) :
    table.lookup t = some key ↔ (t, key) ∈ table := by
  rw [List.lookup_eq_some_iff]
  constructor
  · rintro ⟨front, back, rfl, -⟩
    simp
  · intro hmem
    obtain ⟨front, back, rfl⟩ := List.append_of_mem hmem
    refine ⟨front, back, rfl, fun entry hentry => bne_iff_ne.mpr ?_⟩
    rintro rfl
    rw [List.map_append, List.nodup_append] at h
    exact h.2.2 _ (List.mem_map_of_mem hentry) _ List.mem_cons_self rfl

theorem switched_congr (h : ∀ t ∈ table.map Prod.fst, t ∈ tokens ↔ t ∈ tokens') :
    Switched table tokens key ↔ Switched table tokens' key :=
  exists_congr fun t => and_congr_left fun ht => h t (mem_of_lookup ht)

theorem get?_foldl_switch (tokens : List Text) (args : Args) (key : Key) :
    (tokens.foldl (switch table) args).get? key
      = if Switched table tokens key then some (.flag true) else args.get? key := by
  -- For every start, since a switch in front changes the record that the others find.
  induction tokens generalizing args with
  | nil => simp
  | cons t tokens ih =>
      rw [List.foldl_cons, ih, get?_switch]
      by_cases ht : table.lookup t = some key <;> simp [switched_cons, ht]

theorem get?_mark_eq (table : List (Text × Key)) (tokens : List Text) (key : Key) :
    (mark table tokens).get? key
      = if Switched table tokens key then some (.flag true) else none :=
  get?_foldl_switch tokens [] key

/-! ## Switches for counts -/

/-- No count is selected. -/
def noCounts : Args :=
  [(.countLines, .flag false), (.countWords, .flag false), (.countChars, .flag false)]

theorem set_ne_nil (key : Key) (value : Value) (args : Args) : args.set key value ≠ [] := by
  cases args with
  | nil => exact List.cons_ne_nil _ _
  | cons arg rest =>
      rw [set]
      split <;> exact List.cons_ne_nil _ _

theorem switch_ne_nil (h : args ≠ []) (t : Text) : switch table args t ≠ [] := by
  unfold switch
  split
  · exact set_ne_nil _ _ _
  · exact h

/-- The tokens have a switch for some count. -/
def SelectsCounts (tokens : List Text) : Prop :=
  ∃ t ∈ tokens, (countTable.lookup t).isSome = true

instance (tokens : List Text) : Decidable (SelectsCounts tokens) :=
  inferInstanceAs (Decidable (∃ t ∈ tokens, (countTable.lookup t).isSome = true))

theorem selectsCounts_cons :
    SelectsCounts (t :: tokens) ↔ (countTable.lookup t).isSome = true ∨ SelectsCounts tokens := by
  simp [SelectsCounts]

theorem selectsCounts_iff : SelectsCounts tokens ↔ ∃ key, Switched countTable tokens key := by
  simp only [SelectsCounts, Switched, Option.isSome_iff_exists]
  grind

/-- The record after one more token: the first switch deselects all counts before it selects its
own. -/
def countSwitch (args : Args) (t : Text) : Args :=
  match countTable.lookup t with
  | none => args
  | some key => (if args = [] then noCounts else args).set key (.flag true)

theorem countSwitch_of_ne_nil (h : args ≠ []) (t : Text) :
    countSwitch args t = switch countTable args t := by
  unfold countSwitch switch
  cases countTable.lookup t with
  | none => rfl
  | some key => simp [h]

theorem foldl_countSwitch (h : args ≠ []) (tokens : List Text) :
    tokens.foldl countSwitch args = tokens.foldl (switch countTable) args := by
  induction tokens generalizing args with
  | nil => rfl
  | cons t tokens ih =>
      rw [List.foldl_cons, List.foldl_cons, countSwitch_of_ne_nil h, ih (switch_ne_nil h t)]

/-- Behind the first switch for a count all of them act alike, on a record that selects nothing. -/
theorem countFlags_eq (tokens : List Text) :
    countFlags tokens
      = if SelectsCounts tokens then tokens.foldl (switch countTable) noCounts else [] := by
  change tokens.foldl countSwitch [] = _
  induction tokens with
  | nil => rfl
  | cons t tokens ih =>
      rw [List.foldl_cons, List.foldl_cons]
      cases ht : countTable.lookup t with
      | none =>
          -- Neither scan has met a switch.
          have hnew : countSwitch [] t = [] := by simp [countSwitch, ht]
          have hsame : switch countTable noCounts t = noCounts := by simp [switch, ht]
          rw [hnew, hsame, ih]
          simp [selectsCounts_cons, ht]
      | some key =>
          -- From here on the record is not empty, and nothing is deselected again.
          have hfirst : countSwitch [] t = switch countTable noCounts t := by
            simp [countSwitch, switch, ht]
          have hselects : SelectsCounts (t :: tokens) :=
            selectsCounts_cons.mpr (.inl (by simp [ht]))
          have hne : switch countTable noCounts t ≠ [] := switch_ne_nil (List.cons_ne_nil _ _) t
          rw [hfirst, foldl_countSwitch hne, if_pos hselects]

theorem get?_countFlags_eq (tokens : List Text) (key : Key) :
    (countFlags tokens).get? key
      = if SelectsCounts tokens then
          if Switched countTable tokens key then some (.flag true) else noCounts.get? key
        else none := by
  rw [countFlags_eq]
  split
  · exact get?_foldl_switch tokens noCounts key
  · rfl

end PipeShell.Args
