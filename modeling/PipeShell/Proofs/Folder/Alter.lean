import PipeShell.Proofs.Folder.Bindings

/-!
# Changes of folders

A change at a path keeps a folder tidy, decides what is bound at the path and below it, and leaves
all other paths alone. Writing, erasing and making directories are such changes.
-/

namespace PipeShell

variable {α : Type} {admits : Text → Prop}

/-- What stands inside of a node is tidy. -/
def Node.Tidy (admits : Text → Prop) : Node α → Prop
  | .file _ => True
  | .folder inside => inside.Tidy admits

namespace Folder

/-! ## One entry -/

@[elab_as_elim] theorem entryInduction {motive : Folder α → Prop} (empty : motive empty)
    (add : ∀ name n rest, motive rest → motive (add name n rest)) (f : Folder α) : motive f := by
  induction f with
  | empty => exact empty
  | file name content rest ih => exact add name (.file content) rest ih
  | folder name inside rest _ ih => exact add name (.folder inside) rest ih

@[simp] theorem child?_empty (name : Text) : (empty : Folder α).child? name = none := rfl

@[simp] theorem child?_add (name : Text) (n : Node α) (rest : Folder α) (other : Text) :
    (add name n rest).child? other = if name = other then some n else rest.child? other := by
  cases n <;> rfl

theorem tidy_add {name : Text} {n : Node α} {rest : Folder α} :
    (add name n rest).Tidy admits
      ↔ admits name ∧ rest.child? name = none ∧ n.Tidy admits ∧ rest.Tidy admits := by
  cases n <;> simp [add, Tidy, Node.Tidy]

theorem alterChild_add (name : Text) (change : Option (Node α) → Option (Node α)) (m : Text)
    (n : Node α) (rest : Folder α) :
    (add m n rest).alterChild name change
      = if m = name then (change (some n)).elim rest fun n => add m n rest
        else add m n (rest.alterChild name change) := by
  cases n with
  | file content =>
      by_cases hm : m = name
      · subst hm
        simp only [add, alterChild, if_true]
        cases change (some (.file content)) <;> rfl
      · simp [add, alterChild, hm]
  | folder inside =>
      by_cases hm : m = name
      · subst hm
        simp only [add, alterChild, if_true]
        cases change (some (.folder inside)) <;> rfl
      · simp [add, alterChild, hm]

theorem Tidy.child {f : Folder α} (hf : f.Tidy admits) {name : Text} {n : Node α}
    (h : f.child? name = some n) : n.Tidy admits := by
  induction f using entryInduction with
  | empty => simp at h
  | add m old rest ih =>
      obtain ⟨_, _, ho, hr⟩ := tidy_add.mp hf
      rw [child?_add] at h
      split at h
      · cases h
        exact ho
      · exact ih hr h

/-- Only the changed entry of a tidy folder is another one afterwards. -/
theorem child?_alterChild {f : Folder α} (hf : f.Tidy admits) (name : Text)
    (change : Option (Node α) → Option (Node α)) (other : Text) :
    (f.alterChild name change).child? other
      = if name = other then change (f.child? name) else f.child? other := by
  induction f using entryInduction with
  | empty =>
      simp only [alterChild, child?_empty]
      cases change none <;> simp
  | add m old rest ih =>
      obtain ⟨_, hfree, _, hr⟩ := tidy_add.mp hf
      rw [alterChild_add]
      by_cases hm : m = name
      · subst hm
        cases hc : change (some old) with
        | none =>
            by_cases ho : m = other
            · subst ho
              simp [hc, hfree]
            · simp [ho]
        | some n => by_cases ho : m = other <;> simp [hc, ho]
      · by_cases hmo : m = other
        · subst hmo
          simp [hm, Ne.symm hm]
        · simp [hm, hmo, ih hr]

/-- A change that keeps the entry of a name changes nothing. -/
theorem alterChild_eq_self {name : Text} {change : Option (Node α) → Option (Node α)} {n : Node α}
    {f : Folder α} (h : f.child? name = some n) (hc : change (some n) = some n) :
    f.alterChild name change = f := by
  induction f using entryInduction with
  | empty => simp at h
  | add m old rest ih =>
      rw [child?_add] at h
      rw [alterChild_add]
      by_cases hm : m = name
      · rw [if_pos hm] at h ⊢
        cases h
        rw [hc]
        rfl
      · rw [if_neg hm] at h ⊢
        rw [ih h]

/-- What becomes of the entry of a name decides a change of it. -/
theorem alterChild_congr {name : Text} {change change' : Option (Node α) → Option (Node α)}
    {f : Folder α} (h : change (f.child? name) = change' (f.child? name)) :
    f.alterChild name change = f.alterChild name change' := by
  induction f using entryInduction with
  | empty =>
      rw [child?_empty] at h
      rw [alterChild, alterChild, h]
  | add m old rest ih =>
      rw [child?_add] at h
      rw [alterChild_add, alterChild_add]
      by_cases hm : m = name
      · rw [if_pos hm] at h ⊢
        rw [if_pos hm, h]
      · rw [if_neg hm] at h ⊢
        rw [if_neg hm, ih h]

theorem tidy_alterChild {f : Folder α} (hf : f.Tidy admits) {name : Text} (ha : admits name)
    {change : Option (Node α) → Option (Node α)}
    (hc : ∀ n, change (f.child? name) = some n → n.Tidy admits) :
    (f.alterChild name change).Tidy admits := by
  induction f using entryInduction with
  | empty =>
      simp only [alterChild]
      cases hn : change none with
      | none => trivial
      | some n => exact tidy_add.mpr ⟨ha, rfl, hc n hn, trivial⟩
  | add m old rest ih =>
      obtain ⟨hm, hfree, ho, hr⟩ := tidy_add.mp hf
      rw [alterChild_add]
      rw [child?_add] at hc
      by_cases he : m = name
      · rw [if_pos he] at hc ⊢
        cases hn : change (some old) with
        | none => exact hr
        | some n => exact tidy_add.mpr ⟨hm, hfree, hc n hn, hr⟩
      · rw [if_neg he] at hc ⊢
        refine tidy_add.mpr ⟨hm, ?_, ho, ih hr hc⟩
        rw [child?_alterChild hr, if_neg (Ne.symm he)]
        exact hfree

/-! ## One path -/

theorem node?_singleton (name : Text) (f : Folder α) : f.node? [name] = f.child? name := by
  rw [node?_cons]
  cases f.child? name <;> simp

theorem exists_folder_of_node?_concat {f : Folder α} {above : List Text} {name : Text}
    (h : f.node? (above ++ [name]) ≠ none) :
    ∃ g, f.node? above = some (.folder g) ∧ g.child? name ≠ none := by
  rw [node?_append] at h
  cases habove : f.node? above with
  | none => simp [habove] at h
  | some n =>
      cases n with
      | file content => simp [habove, Node.at?] at h
      | folder g =>
          refine ⟨g, rfl, ?_⟩
          rw [← node?_singleton]
          simpa [habove, Node.at?] using h

theorem tidy_alter {path : List Text} {f : Folder α} (hf : f.Tidy admits)
    (hp : ∀ s ∈ path, admits s) {change : Option (Node α) → Option (Node α)}
    (hc : ∀ old n, change old = some n → n.Tidy admits) : (f.alter path change).Tidy admits := by
  induction path generalizing f with
  | nil => exact hf
  | cons name path ih =>
      cases path with
      | nil => exact tidy_alterChild hf (hp name (by simp)) (hc _)
      | cons next path =>
          refine tidy_alterChild hf (hp name (by simp)) fun n hn => ?_
          cases hch : f.child? name with
          | none => simp [hch] at hn
          | some old =>
              cases old with
              | file content =>
                  obtain rfl : Node.file content = n := by simpa [hch] using hn
                  trivial
              | folder inside =>
                  have hi : inside.Tidy admits := hf.child hch
                  obtain rfl : Node.folder (inside.alter (next :: path) change) = n := by
                    simpa [hch] using hn
                  exact ih hi fun s hs => hp s (by simp [hs])

theorem exists_folder_of_node?_cons {name : Text} {path : List Text} {f g : Folder α}
    (h : f.node? (name :: path) = some (.folder g)) :
    ∃ inside, f.child? name = some (.folder inside) ∧ inside.node? path = some (.folder g) := by
  rw [node?_cons] at h
  cases hch : f.child? name with
  | none => simp [hch] at h
  | some n =>
      cases n with
      | file content => cases path <;> simp [hch, Node.at?] at h
      | folder inside => exact ⟨inside, rfl, by simpa [hch, Node.at?] using h⟩

/-- Below a folder, a change at a path is a change in the folder. -/
theorem alter_cons_concat {name last : Text} {path : List Text}
    {change : Option (Node α) → Option (Node α)} {f inside : Folder α}
    (h : f.child? name = some (.folder inside)) :
    f.alter (name :: path ++ [last]) change
      = f.alterChild name fun _ => some (.folder (inside.alter (path ++ [last]) change)) := by
  obtain ⟨next, rest, hnext⟩ := List.exists_cons_of_ne_nil (List.concat_ne_nil last path)
  rw [List.cons_append, hnext, alter]
  exact alterChild_congr (by rw [h])

theorem exists_folder_of_directory {name : Text} {path : List Text} {f : Folder α}
    (hd : f.binding? (name :: path) = some .directory) :
    ∃ inside, f.child? name = some (.folder inside) ∧ inside.binding? path = some .directory := by
  obtain ⟨g, hg⟩ := binding?_eq_directory.mp hd
  obtain ⟨inside, hch, hin⟩ := exists_folder_of_node?_cons hg
  exact ⟨inside, hch, binding?_eq_directory.mpr ⟨g, hin⟩⟩

/-- A change below an existing directory decides what is bound at its path and below it. -/
theorem binding?_alter {path : List Text} {f : Folder α} (hf : f.Tidy admits) (hne : path ≠ [])
    (hd : f.binding? path.dropLast = some .directory)
    (change : Option (Node α) → Option (Node α)) (q : List Text) :
    (f.alter path change).binding? q
      = if path <+: q then
          ((change (f.node? path)).bind (·.at? (q.drop path.length))).map Node.binding
        else f.binding? q := by
  induction path generalizing f q with
  | nil => exact absurd rfl hne
  | cons name path ih =>
      cases q with
      | nil => simp
      | cons m q =>
          cases path with
          | nil =>
              have hn := node?_singleton name f
              simp only [alter, binding?, node?_cons, child?_alterChild hf, hn, List.cons_prefix_cons,
                List.nil_prefix, and_true]
              by_cases hm : name = m <;> simp [hm]
          | cons next path =>
              simp only [alter, List.cons_prefix_cons]
              by_cases hm : name = m
              · subst hm
                obtain ⟨inside, hch, hin⟩ := exists_folder_of_directory hd
                have ih := ih (hf.child hch) (by simp) hin q
                simpa [binding?, node?_cons, child?_alterChild hf, hch, Node.at?] using ih
              · simp [binding?, node?_cons, child?_alterChild hf, hm]

/-! ## Looking into tidy folders -/

theorem Tidy.node {f : Folder α} (hf : f.Tidy admits) {path : List Text} {n : Node α}
    (h : f.node? path = some n) : n.Tidy admits := by
  induction path generalizing f with
  | nil =>
      obtain rfl : Node.folder f = n := by simpa using h
      exact hf
  | cons name path ih =>
      rw [node?_cons] at h
      cases hc : f.child? name with
      | none => simp [hc] at h
      | some m =>
          cases m with
          | folder inside => exact ih (hf.child hc) (by simpa [hc, Node.at?] using h)
          | file content =>
              obtain ⟨_, rfl⟩ : path = [] ∧ Node.file content = n := by
                simpa [hc, Node.at?] using h
              trivial

/-- A change below a folder is a change of that folder. -/
theorem node?_alter_below {p q : List Text} {f inside : Folder α} (hf : f.Tidy admits)
    (hq : q ≠ []) (hn : f.node? p = some (.folder inside))
    (change : Option (Node α) → Option (Node α)) :
    (f.alter (p ++ q) change).node? p = some (.folder (inside.alter q change)) := by
  induction p generalizing f with
  | nil =>
      obtain rfl : f = inside := by simpa using hn
      rfl
  | cons name p ih =>
      obtain ⟨next, rest, hpq⟩ := List.exists_cons_of_ne_nil (List.append_ne_nil_of_right_ne_nil p hq)
      rw [node?_cons] at hn
      rw [List.cons_append, hpq, alter, node?_cons, child?_alterChild hf, if_pos rfl]
      cases hch : f.child? name with
      | none => simp [hch] at hn
      | some n =>
          rw [hch] at hn
          cases n with
          | file content => cases p <;> simp [Node.at?] at hn
          | folder below =>
              have ih := ih (hf.child hch) hn
              rw [hpq] at ih
              exact ih

theorem node?_alter {path : List Text} {f : Folder α} (hf : f.Tidy admits) (hne : path ≠ [])
    (hd : f.binding? path.dropLast = some .directory)
    (change : Option (Node α) → Option (Node α)) :
    (f.alter path change).node? path = change (f.node? path) := by
  obtain ⟨inside, hn⟩ := binding?_eq_directory.mp hd
  have hlast := List.dropLast_concat_getLast hne
  have hinside : inside.Tidy admits := hf.node hn
  rw [← hlast, node?_append, node?_append, node?_alter_below hf (by simp) hn, hn]
  simp only [Option.bind_some, Node.at?, node?_singleton, alter]
  rw [child?_alterChild hinside, if_pos rfl]

/-- The paths of all entries go on with admitted names. -/
theorem Tidy.entriesUnder {f : Folder α} (hf : f.Tidy admits) {above : List Text}
    {e : List Text × Option α} (he : e ∈ f.entriesUnder above) :
    ∃ below, e.1 = above ++ below ∧ ∀ s ∈ below, admits s := by
  induction f generalizing above with
  | empty => simp [Folder.entriesUnder] at he
  | file name content rest ih =>
      rcases List.mem_cons.mp he with rfl | he
      · exact ⟨[name], rfl, by simpa using hf.1⟩
      · exact ih hf.2.2 he
  | folder name inside rest ihi ih =>
      rcases List.mem_cons.mp he with rfl | he
      · exact ⟨[name], rfl, by simpa using hf.1⟩
      · rcases List.mem_append.mp he with he | he
        · obtain ⟨below, hb, hn⟩ := ihi hf.2.2.1 he
          exact ⟨name :: below, by simp [hb], by simpa using ⟨hf.1, hn⟩⟩
        · exact ih hf.2.2.2 he

/-! ## Writing and erasing -/

theorem tidy_write {path : List Text} {f : Folder α} (hf : f.Tidy admits)
    (hp : ∀ s ∈ path, admits s) (content : α) : (f.write path content).Tidy admits := by
  refine tidy_alter hf hp fun old n hn => ?_
  cases hn
  trivial

theorem tidy_erase {path : List Text} {f : Folder α} (hf : f.Tidy admits)
    (hp : ∀ s ∈ path, admits s) : (f.erase path).Tidy admits :=
  tidy_alter hf hp fun _ _ hn => nomatch hn

theorem binding?_write {path : List Text} {f : Folder α} (hf : f.Tidy admits) (hne : path ≠ [])
    (hd : f.binding? path.dropLast = some .directory) (hf' : f.binding? path ≠ some .directory)
    (content : α) (q : List Text) :
    (f.write path content).binding? q
      = if q = path then some (.file content) else f.binding? q := by
  rw [write, binding?_alter hf hne hd]
  by_cases hq : q = path
  · subst hq
    simp [Node.at?, Node.binding]
  · by_cases hpre : path <+: q
    · obtain ⟨below, rfl⟩ := hpre
      have hb : below ≠ [] := by
        rintro rfl
        simp at hq
      simp [hb, Node.at?, binding?_below hb hf']
    · simp [hpre, hq]

theorem binding?_erase {path : List Text} {f : Folder α} (hf : f.Tidy admits) (hne : path ≠ [])
    (hd : f.binding? path.dropLast = some .directory) (q : List Text) :
    (f.erase path).binding? q = if path <+: q then none else f.binding? q := by
  rw [erase, binding?_alter hf hne hd]
  simp

/-! ## Making directories -/

theorem binding?_empty (path : List Text) :
    (empty : Folder α).binding? path = if path = [] then some .directory else none := by
  cases path <;> simp [binding?, node?_cons]

theorem tidy_ensure {path : List Text} {f : Folder α} (hf : f.Tidy admits)
    (hp : ∀ s ∈ path, admits s) : (f.ensure path).Tidy admits := by
  induction path generalizing f with
  | nil => exact hf
  | cons name path ih =>
      have ih : ∀ g : Folder α, g.Tidy admits → (g.ensure path).Tidy admits :=
        fun g hg => ih hg fun s hs => hp s (by simp [hs])
      refine tidy_alterChild hf (hp name (by simp)) fun n hn => ?_
      cases hch : f.child? name with
      | none =>
          obtain rfl : Node.folder (ensure path empty) = n := by simpa [hch] using hn
          exact ih empty trivial
      | some old =>
          cases old with
          | file content =>
              obtain rfl : Node.file content = n := by simpa [hch] using hn
              trivial
          | folder inside =>
              obtain rfl : Node.folder (inside.ensure path) = n := by simpa [hch] using hn
              exact ih inside (hf.child hch)

/-- Unless a file is in the way, making a directory binds its path and all above it, and nothing
else. -/
theorem binding?_ensure {path : List Text} {f : Folder α} (hf : f.Tidy admits)
    (hfree : ∀ p content, p <+: path → f.binding? p ≠ some (.file content)) (q : List Text) :
    (f.ensure path).binding? q = if q <+: path then some .directory else f.binding? q := by
  induction path generalizing f q with
  | nil =>
      by_cases hq : q = [] <;> simp [ensure, hq]
  | cons name path ih =>
      cases q with
      | nil => simp
      | cons m q =>
          simp only [ensure, binding?, node?_cons, child?_alterChild hf, List.cons_prefix_cons]
          by_cases hm : name = m
          · subst hm
            -- Below a directory that is made anew nothing is bound; an old one is gone into.
            cases hch : f.child? name with
            | none =>
                have hin : ∀ p content, p <+: path →
                    (empty : Folder α).binding? p ≠ some (.file content) := by
                  intro p content _
                  rw [binding?_empty]
                  split <;> simp
                have ih := ih (show (empty : Folder α).Tidy admits from trivial) hin q
                rw [binding?_empty] at ih
                by_cases hq : q = []
                · simp [hq]
                · simpa [hch, Node.at?, hq, binding?] using ih
            | some n =>
                cases n with
                | file content =>
                    have := hfree [name] content (by simp)
                    simp [binding?, node?_cons, hch, Node.binding] at this
                | folder inside =>
                    have hin : ∀ p content, p <+: path →
                        inside.binding? p ≠ some (.file content) := by
                      intro p content hp
                      have := hfree (name :: p) content (by simpa using hp)
                      simpa [binding?, node?_cons, hch, Node.at?] using this
                    have ih := ih (hf.child hch) hin q
                    simpa [hch, Node.at?, binding?] using ih
          · simp [hm, Ne.symm hm]

theorem ensure_of_directory {path : List Text} {f : Folder α}
    (hd : f.binding? path = some .directory) : f.ensure path = f := by
  induction path generalizing f with
  | nil => rfl
  | cons name path ih =>
      obtain ⟨inside, hch, hin⟩ := exists_folder_of_directory hd
      exact alterChild_eq_self hch (by simp [ih hin])

/-! ## Clear paths -/

variable {f : Folder α} {p q : List Text}

/-- No two entries of a directory share a name. -/
abbrev Distinct (f : Folder α) : Prop :=
  f.Tidy fun _ => True

/-- No file stands at the path or above it. -/
def Clear (f : Folder α) (path : List Text) : Prop :=
  ∀ p content, p <+: path → f.binding? p ≠ some (.file content)

theorem Clear.above (h : f.Clear q) (hp : p <+: q) : f.Clear p :=
  fun r content hr => h r content (hr.trans hp)

theorem binding?_below_file {content : α} (hq : q <+: p) (hne : q ≠ p)
    (h : f.binding? q = some (.file content)) : f.binding? p = none := by
  obtain ⟨below, rfl⟩ := hq
  exact binding?_below (by simpa using hne) (by simp [h])

theorem directory_above (h : f.binding? p = some .directory) (hq : q <+: p) :
    f.binding? q = some .directory := by
  obtain ⟨below, rfl⟩ := hq
  by_cases hb : below = []
  · simpa [hb] using h
  · exact binding?_above hb (by simp [h])

theorem clear_of_directory (h : f.binding? p = some .directory) : f.Clear p := by
  intro q content hq hfile
  rw [directory_above h hq] at hfile
  cases hfile

theorem prefix_dropLast (hq : q <+: p) (hne : q ≠ p) : q <+: p.dropLast := by
  obtain ⟨below, rfl⟩ := hq
  rw [List.dropLast_append_of_ne_nil (by simpa using hne)]
  exact List.prefix_append _ _

/-- An empty folder below existing ones binds its path, and nothing else. -/
theorem binding?_alter_folder (hf : f.Tidy admits) (hne : p ≠ [])
    (hd : f.binding? p.dropLast = some .directory) (hnone : f.binding? p = none) (q : List Text) :
    (f.alter p fun _ => some (.folder .empty)).binding? q
      = if q <+: p then some .directory else f.binding? q := by
  rw [binding?_alter hf hne hd]
  by_cases hq : q <+: p
  · rw [if_pos hq]
    by_cases hsame : q = p
    · subst hsame
      simp
    · have hpre : ¬p <+: q := fun h => hsame (hq.eq_of_length_le h.length_le)
      rw [if_neg hpre, directory_above hd (prefix_dropLast hq hsame)]
  · rw [if_neg hq]
    by_cases hpre : p <+: q
    · obtain ⟨below, rfl⟩ := hpre
      have hb : below ≠ [] := by
        rintro rfl
        simp at hq
      have hempty : (empty : Folder α).binding? below = none := by simp [binding?_empty, hb]
      rw [if_pos (List.prefix_append _ _), List.drop_left, binding?_below hb (by simp [hnone])]
      exact hempty
    · rw [if_neg hpre]

theorem tidy_hollow (hf : f.Tidy admits) (hp : ∀ s ∈ p, admits s) : (f.hollow p).Tidy admits := by
  unfold hollow
  split
  · trivial
  · refine tidy_alter hf hp fun old n hn => ?_
    cases hn
    trivial

/-- Hollowing a folder out unbinds all that is below it, and nothing else. -/
theorem binding?_hollow (hf : f.Tidy admits) (hd : f.binding? p = some .directory) (q : List Text) :
    (f.hollow p).binding? q
      = if p <+: q then if q = p then some .directory else none else f.binding? q := by
  unfold hollow
  by_cases hp : p = []
  · simp [hp, binding?_empty]
  · rw [if_neg hp, binding?_alter hf hp (directory_above hd (List.dropLast_prefix p))]
    by_cases hq : p <+: q
    · obtain ⟨below, rfl⟩ := hq
      by_cases hb : below = []
      · simp [hb]
      · have hempty : (empty : Folder α).binding? below = none := by simp [binding?_empty, hb]
        rw [if_pos (List.prefix_append _ _), if_pos (List.prefix_append _ _), List.drop_left,
          if_neg (by simpa using hb)]
        exact hempty
    · rw [if_neg hq, if_neg hq]

theorem Clear.append (h : f.Clear p) {name : Text} (hn : f.binding? (p ++ [name]) = none)
    (rest : List Text) : f.Clear (p ++ name :: rest) := by
  intro q content hq hfile
  rcases List.prefix_or_prefix_of_prefix hq (List.prefix_append p (name :: rest)) with hqp | ⟨r, rfl⟩
  · exact h q content hqp hfile
  · cases r with
    | nil => exact h _ content (by simp) hfile
    | cons s r =>
        obtain rfl : s = name := by simpa using (List.prefix_append_right_inj p).mp hq |>.head
        have hnone : f.binding? (p ++ [s] ++ r) = none := by
          by_cases hr : r = []
          · simpa [hr] using hn
          · exact binding?_below hr (by simp [hn])
        rw [List.append_assoc, List.singleton_append, hfile] at hnone
        cases hnone

end Folder

end PipeShell
