import PipeShell.Args.Grammar

/-!
# Keys of argument records

What setting, filling and dropping a key does to the values under the keys of a record, and which
keys a grammar leaves alone.
-/

namespace PipeShell.Args

variable {args : Args} {key other : Key} {value : Value}

/-- The record without a key. -/
def without (key : Key) (args : Args) : Args :=
  args.filter (·.1 ≠ key)

/-! ## Values -/

@[simp] theorem get?_nil (key : Key) : get? [] key = none := rfl

theorem get?_cons (key other : Key) (value : Value) (rest : Args) :
    get? ((other, value) :: rest) key = if key = other then some value else get? rest key := by
  by_cases h : key = other
  · simp [get?, h]
  · have hb : (key == other) = false := beq_false_of_ne h
    simp [get?, List.lookup_cons, hb, h]

theorem get?_set_self (key : Key) (value : Value) (args : Args) :
    (args.set key value).get? key = some value := by
  induction args with
  | nil => simp [set, get?_cons]
  | cons arg rest ih =>
      obtain ⟨k, v⟩ := arg
      rw [set]
      split
      · simp [get?_cons]
      · rename_i hne
        rw [get?_cons, if_neg (Ne.symm hne), ih]

theorem get?_set_of_ne (h : other ≠ key) (value : Value) (args : Args) :
    (args.set key value).get? other = args.get? other := by
  induction args with
  | nil => simp [set, get?_cons, h]
  | cons arg rest ih =>
      obtain ⟨k, v⟩ := arg
      rw [set]
      split
      · rename_i heq
        simp [get?_cons, h, heq]
      · simp [get?_cons, ih]

theorem get?_without_self (key : Key) (args : Args) : (args.without key).get? key = none := by
  induction args with
  | nil => rfl
  | cons arg rest ih =>
      obtain ⟨k, v⟩ := arg
      by_cases heq : k = key
      · rw [without, List.filter_cons_of_neg (by simpa using heq)]
        exact ih
      · rw [without, List.filter_cons_of_pos (by simpa using heq), get?_cons,
          if_neg (Ne.symm heq)]
        exact ih

theorem get?_without_of_ne (h : other ≠ key) (args : Args) :
    (args.without key).get? other = args.get? other := by
  induction args with
  | nil => rfl
  | cons arg rest ih =>
      obtain ⟨k, v⟩ := arg
      by_cases heq : k = key
      · subst heq
        rw [without, List.filter_cons_of_neg (by simp), get?_cons, if_neg h]
        exact ih
      · rw [without, List.filter_cons_of_pos (by simpa using heq), get?_cons, get?_cons]
        rw [without] at ih
        rw [ih]

/-! ## Grammars -/

theorem get?_fill {keys : List Key} (h : key ∉ keys) (tokens : List Text) (args : Args) :
    (fill keys tokens args).get? key = args.get? key := by
  induction keys generalizing tokens args with
  | nil => simp [fill]
  | cons slot keys ih =>
      obtain ⟨hslot, hkeys⟩ := not_or.mp (mt List.mem_cons.mpr h)
      cases tokens with
      | nil => simp [fill]
      | cons t tokens => rw [fill, ih hkeys, get?_set_of_ne hslot]

/-- Steps that leave a key alone leave it alone as a whole. -/
theorem get?_foldl {step : Args → Text → Args}
    (hstep : ∀ args t, (step args t).get? key = args.get? key) (tokens : List Text) (args : Args) :
    (tokens.foldl step args).get? key = args.get? key := by
  induction tokens generalizing args with
  | nil => rfl
  | cons t tokens ih => rw [List.foldl_cons, ih, hstep]

theorem ne_of_lookup {table : List (Text × Key)} (h : key ∉ table.map (·.2)) {t : Text}
    (ht : table.lookup t = some other) : key ≠ other := by
  rintro rfl
  obtain ⟨front, back, rfl, -⟩ := List.lookup_eq_some_iff.mp ht
  simp at h

theorem get?_mark {table : List (Text × Key)} (h : key ∉ table.map (·.2)) (tokens : List Text) :
    (mark table tokens).get? key = none := by
  refine get?_foldl (fun args t => ?_) tokens []
  split
  · rename_i ht
    exact get?_set_of_ne (ne_of_lookup h ht) _ _
  · rfl

theorem get?_countFlags (h : key ∉ countTable.map (·.2)) (tokens : List Text) :
    (countFlags tokens).get? key = none := by
  refine get?_foldl (fun args t => ?_) tokens []
  split
  · rfl
  · rename_i found ht
    rw [get?_set_of_ne (ne_of_lookup h ht)]
    split
    · simp_all [get?_cons, countTable]
    · rfl

theorem get?_paths_of_parse {v : Verb} {tokens : List Text}
    (hv : v = .sort ∨ v = .deduplicate ∨ v = .wordCount) (h : parse v tokens = .ok args) :
    args.get? .paths = none := by
  rcases hv with rfl | rfl | rfl
  all_goals
    obtain rfl := Except.ok.inj h
    first
    | exact (get?_fill (by decide) _ _).trans (get?_mark (by decide) _)
    | exact (get?_fill (by decide) _ _).trans (get?_countFlags (by decide) _)

end PipeShell.Args
