import PipeShell.Proofs.Store.Action
import PipeShell.Args.Grammar

/-!
# Records as settings

Every grammar makes its record by setting known keys, one after another. So whatever the empty
record has and every setting of a known key keeps, all records have.
-/

namespace PipeShell.Args

variable {P : Args → Prop} {args : Args} {tokens : List Text}

/-- Setting a key that the verbs know keeps the property. -/
def KeptBySet (P : Args → Prop) : Prop :=
  ∀ args key value, key ∈ Key.known → P args → P (args.set key value)

section Grammars

variable (hset : KeptBySet P)
include hset

theorem KeptBySet.fill {keys : List Key} (hkeys : ∀ key ∈ keys, key ∈ Key.known) (h : P args) :
    P (fill keys tokens args) := by
  induction keys generalizing tokens args with
  | nil => simpa [Args.fill] using h
  | cons key keys ih =>
      obtain ⟨hkey, hkeys⟩ := List.forall_mem_cons.mp hkeys
      cases tokens with
      | nil => simpa [Args.fill] using h
      | cons t tokens => exact ih hkeys (hset args key _ hkey h)

omit hset in
theorem known_of_lookup {table : List (Text × Key)} (htable : ∀ e ∈ table, e.2 ∈ Key.known)
    {t : Text} {key : Key} (h : table.lookup t = some key) : key ∈ Key.known := by
  obtain ⟨front, back, rfl, -⟩ := List.lookup_eq_some_iff.mp h
  exact htable (t, key) (by simp)

theorem KeptBySet.mark {table : List (Text × Key)} (htable : ∀ e ∈ table, e.2 ∈ Key.known)
    (hnil : P []) (tokens : List Text) : P (mark table tokens) := by
  refine List.foldlRecOn tokens _ hnil fun args h t _ => ?_
  split
  · rename_i key hkey
    exact hset args key _ (known_of_lookup htable hkey) h
  · exact h

theorem KeptBySet.countFlags (hnil : P []) (tokens : List Text) : P (countFlags tokens) := by
  have hcounts : P [(.countLines, .flag false), (.countWords, .flag false),
      (.countChars, .flag false)] :=
    hset _ .countChars (.flag false) (by decide)
      (hset _ .countWords (.flag false) (by decide)
        (hset [] .countLines (.flag false) (by decide) hnil))
  refine List.foldlRecOn tokens _ hnil fun args h t _ => ?_
  split
  · exact h
  · rename_i key hkey
    have htable : ∀ e ∈ countTable, e.2 ∈ Key.known := by decide
    refine hset _ key _ (known_of_lookup htable hkey) ?_
    split
    · exact hcounts
    · exact h

theorem KeptBySet.searchFlags {found : List Text} (h : P args) :
    P (searchFlags tokens args found).1 := by
  fun_induction Args.searchFlags tokens args found with
  | case1 args found => exact h
  | case2 t args found => exact hset _ _ _ (by decide) h
  | case3 t args found => exact hset _ _ _ (by decide) h
  | case4 t args found => exact h
  | case5 t args found => exact h
  | case6 t next rest args found _ ih => exact ih (hset _ _ _ (by decide) h)
  | case7 t next rest args found _ _ ih => exact ih (hset _ _ _ (by decide) h)
  | case8 t next rest args found _ _ _ ih => exact ih (hset _ _ _ (by decide) h)
  | case9 t next rest args found _ _ _ _ ih => exact ih h
  | case10 t next rest args found _ _ _ _ ih => exact ih h

theorem KeptBySet.setLines (h : P args) (t : Text) :
    Attempt.Gives (setLines t args) P fun _ => True := by
  refine Attempt.Gives.bind (P := fun _ => True)
    (Attempt.gives_of (fun _ _ => trivial) fun _ _ => trivial) fun count _ => ?_
  cases count with
  | none => exact h
  | some n => exact hset _ _ _ (by decide) h

theorem KeptBySet.lineRangeToken (h : P args) (t : Text) :
    Attempt.Gives (lineRangeToken t args) P fun _ => True := by
  rw [Args.lineRangeToken]
  split
  · refine Attempt.Gives.bind (P := fun _ => True)
      (Attempt.gives_of (fun _ _ => trivial) fun _ _ => trivial) fun n _ => ?_
    exact hset _ _ _ (by decide) h
  · split
    · exact h
    · split
      · exact hset.setLines h t
      · exact hset _ _ _ (by decide) h

theorem KeptBySet.lineRange (h : P args) :
    Attempt.Gives (lineRange tokens args) P fun _ => True := by
  fun_induction Args.lineRange tokens args with
  | case1 args => exact h
  | case2 t args => exact hset.lineRangeToken h t
  | case3 t next rest args _ ih => exact (hset.setLines h next).bind fun args h => ih args h
  | case4 t next rest args _ ih => exact (hset.lineRangeToken h t).bind fun args h => ih args h

theorem KeptBySet.writing (h : P args) : P (writing tokens args) := by
  induction tokens generalizing args with
  | nil => exact h
  | cons t rest ih =>
      rw [Args.writing]
      split
      · refine ih ?_
        split
        · exact hset _ _ _ (by decide) h
        · exact h
      · have hpath : P (args.set .path (.text t)) := hset _ _ _ (by decide) h
        dsimp only
        split
        · exact hpath
        · exact hset _ _ _ (by decide) hpath

theorem KeptBySet.one (hnil : P []) {key : Key} (hkey : key ∈ Key.known) (value : Value) :
    P [(key, value)] :=
  hset [] key value hkey hnil

/-- Every record has what the empty one has and every setting of a known key keeps. -/
theorem KeptBySet.parse (hnil : P []) (v : Verb) (tokens : List Text) :
    Attempt.Gives (parse v tokens) P fun _ => True := by
  have htable : ∀ e ∈ flagTable v, e.2 ∈ Key.known := by cases v <;> decide
  have hslots : ∀ key ∈ slots v, key ∈ Key.known := by cases v <;> decide
  unfold Args.parse
  split
  · refine Attempt.gives_ok ?_
    rw [pathOrPaths]
    split
    · exact hnil
    · exact hset.one hnil (by decide) _
    · exact hset.one hnil (by decide) _
  · refine Attempt.gives_ok ?_
    rw [pathList]
    split
    · exact hnil
    · exact hset.one hnil (by decide) _
  · refine Attempt.gives_ok (hset.fill ?_ (hset.searchFlags hnil))
    split <;> decide
  · exact hset.lineRange hnil
  · exact hset.lineRange hnil
  · exact Attempt.gives_ok (hset.fill (by decide) (hset.countFlags hnil tokens))
  · refine Attempt.gives_ok ?_
    split
    · exact hnil
    · exact hset.one hnil (by decide) _
  · exact Attempt.gives_ok (hset.writing hnil)
  · exact Attempt.gives_ok (hset.fill hslots (hset.mark htable hnil tokens))

end Grammars

/-! ## Known keys -/

/-- The verbs know all keys of the record. -/
def Known (args : Args) : Prop :=
  ∀ arg ∈ args, arg.1 ∈ Key.known

theorem keptBySet_known : KeptBySet Known := by
  intro args key value hkey h
  induction args with
  | nil => simpa [Known, set] using hkey
  | cons arg rest ih =>
      obtain ⟨harg, hrest⟩ := List.forall_mem_cons.mp h
      rw [set]
      split
      · exact List.forall_mem_cons.mpr ⟨hkey, hrest⟩
      · exact List.forall_mem_cons.mpr ⟨harg, ih hrest⟩

theorem known_of_parse {v : Verb} (h : parse v tokens = .ok args) : args.Known :=
  (keptBySet_known.parse (by simp [Known]) v tokens).given h

end PipeShell.Args
