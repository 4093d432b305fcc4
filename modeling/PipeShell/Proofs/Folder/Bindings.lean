import PipeShell.Folder

/-!
# What paths are bound to

A folder seen as a map from paths to bindings. In a tidy folder no two entries share a name, and each
change of a folder changes this map below the changed path alone.
-/

namespace PipeShell

/-- What a path is bound to: a directory, or a file with its content. -/
inductive Binding (α : Type)
  | directory
  | file (content : α)
  deriving DecidableEq, Repr

variable {α : Type}

/-- The binding that a node gives its path. -/
def Node.binding : Node α → Binding α
  | .file content => .file content
  | .folder _ => .directory

@[simp] theorem Node.binding_file (content : α) : (Node.file content).binding = .file content := rfl

@[simp] theorem Node.binding_folder (inside : Folder α) :
    (Node.folder inside).binding = .directory := rfl

/-- The node at a path below a node. -/
def Node.at? (path : List Text) : Node α → Option (Node α)
  | .file content => if path = [] then some (.file content) else none
  | .folder inside => inside.node? path

namespace Folder

/-- The binding of a path, if it is bound. -/
def binding? (path : List Text) (f : Folder α) : Option (Binding α) :=
  (f.node? path).map Node.binding

/-- Every name is admitted, and no two entries of a directory share one. -/
def Tidy (admits : Text → Prop) : Folder α → Prop
  | empty => True
  | file name _ rest => admits name ∧ rest.child? name = none ∧ rest.Tidy admits
  | folder name inside rest =>
      admits name ∧ rest.child? name = none ∧ inside.Tidy admits ∧ rest.Tidy admits

/-! ## Nodes at paths -/

@[simp] theorem node?_nil (f : Folder α) : f.node? [] = some (.folder f) := rfl

theorem node?_cons (name : Text) (path : List Text) (f : Folder α) :
    f.node? (name :: path) = (f.child? name).bind (·.at? path) := by
  rw [node?, find]
  cases f.child? name with
  | none => rfl
  | some n =>
      cases n with
      | file content =>
          by_cases hp : path = [] <;> simp [hp, Node.at?]
      | folder inside =>
          simp only [Option.bind_some, Node.at?, node?]
          cases inside.find path <;> rfl

end Folder

@[simp] theorem Node.at?_nil (n : Node α) : n.at? [] = some n := by
  cases n <;> rfl

theorem Node.at?_append (p q : List Text) (n : Node α) :
    n.at? (p ++ q) = (n.at? p).bind (·.at? q) := by
  induction p generalizing n with
  | nil => simp
  | cons s p ih =>
      cases n with
      | file content => simp [Node.at?]
      | folder inside =>
          simp only [List.cons_append, Node.at?, Folder.node?_cons, Option.bind_assoc]
          cases inside.child? s with
          | none => rfl
          | some m => exact ih m

namespace Folder

theorem node?_append (p q : List Text) (f : Folder α) :
    f.node? (p ++ q) = (f.node? p).bind (·.at? q) :=
  Node.at?_append p q (.folder f)

@[simp] theorem binding?_nil (f : Folder α) : f.binding? [] = some .directory := rfl

theorem binding?_eq_file {path : List Text} {content : α} {f : Folder α} :
    f.binding? path = some (.file content) ↔ f.node? path = some (.file content) := by
  rw [binding?]
  cases f.node? path with
  | none => simp
  | some n => cases n <;> simp [Node.binding]

theorem binding?_eq_directory {path : List Text} {f : Folder α} :
    f.binding? path = some .directory ↔ ∃ inside, f.node? path = some (.folder inside) := by
  rw [binding?]
  cases f.node? path with
  | none => simp
  | some n => cases n <;> simp [Node.binding]

theorem binding?_eq_none {path : List Text} {f : Folder α} :
    f.binding? path = none ↔ f.node? path = none := by
  simp [binding?]

/-- What stands above a bound path is a directory. -/
theorem binding?_above {p q : List Text} {f : Folder α} (hq : q ≠ [])
    (h : f.binding? (p ++ q) ≠ none) : f.binding? p = some .directory := by
  rw [Ne, binding?_eq_none, node?_append] at h
  cases hp : f.node? p with
  | none => simp [hp] at h
  | some n =>
      cases n with
      | file content => simp [hp, Node.at?, hq] at h
      | folder inside => exact binding?_eq_directory.mpr ⟨inside, hp⟩

theorem binding?_dropLast {p : List Text} {f : Folder α} (h : f.binding? p ≠ none) :
    f.binding? p.dropLast = some .directory := by
  by_cases hne : p = []
  · subst hne
    rfl
  · refine binding?_above (q := [p.getLast hne]) (by simp) ?_
    rwa [List.dropLast_concat_getLast hne]

/-- Nothing is bound below a path that is no directory. -/
theorem binding?_below {p q : List Text} {f : Folder α} (hq : q ≠ [])
    (h : f.binding? p ≠ some .directory) : f.binding? (p ++ q) = none := by
  by_cases hb : f.binding? (p ++ q) = none
  · exact hb
  · exact absurd (binding?_above hq hb) h

/-! ## Searching -/

theorem find_eq_node {path : List Text} {f : Folder α} {n : Node α} :
    f.find path = .node n ↔ f.node? path = some n := by
  rw [node?]
  cases f.find path <;> simp

/-- A search that misses stops at an unbound path, and no file was in the way. -/
theorem find_missing {path here : List Text} {f : Folder α} (h : f.find path = .missing here) :
    here <+: path ∧ f.binding? path = none
      ∧ ∀ p content, p <+: path → f.binding? p ≠ some (.file content) := by
  induction path generalizing f here with
  | nil => simp [find] at h
  | cons name path ih =>
      rw [find] at h
      cases hc : f.child? name with
      | none =>
          obtain rfl : [name] = here := by simpa [hc] using h
          refine ⟨by simp, by simp [binding?, node?_cons, hc], fun p content hp => ?_⟩
          cases p with
          | nil => simp
          | cons m p =>
              obtain rfl : m = name := by simpa using hp.head
              simp [binding?, node?_cons, hc]
      | some n =>
          cases n with
          | file content =>
              by_cases hp : path = [] <;> simp [hc, hp] at h
          | folder inside =>
              cases hf : inside.find path with
              | node n => simp [hc, hf, Found.under] at h
              | blocked p => simp [hc, hf, Found.under] at h
              | missing below =>
                  obtain rfl : name :: below = here := by simpa [hc, hf, Found.under] using h
                  obtain ⟨hpre, hnone, hfile⟩ := ih hf
                  refine ⟨by simpa using hpre, ?_, fun p content hp => ?_⟩
                  · simpa [binding?, node?_cons, hc, Node.at?] using hnone
                  · cases p with
                    | nil => simp
                    | cons m p =>
                        obtain ⟨rfl, hq⟩ := List.cons_prefix_cons.mp hp
                        simpa [binding?, node?_cons, hc, Node.at?] using hfile p content hq

/-- A search that is blocked stops at a file above the path. -/
theorem find_blocked {path here : List Text} {f : Folder α} (h : f.find path = .blocked here) :
    here <+: path ∧ here ≠ path ∧ ∃ content, f.binding? here = some (.file content) := by
  induction path generalizing f here with
  | nil => simp [find] at h
  | cons name path ih =>
      rw [find] at h
      cases hc : f.child? name with
      | none => simp [hc] at h
      | some n =>
          cases n with
          | file content =>
              by_cases hp : path = []
              · simp [hc, hp] at h
              · obtain rfl : [name] = here := by simpa [hc, hp] using h
                refine ⟨by simp, by simpa using Ne.symm hp, content, ?_⟩
                simp [binding?, node?_cons, hc]
          | folder inside =>
              cases hf : inside.find path with
              | node n => simp [hc, hf, Found.under] at h
              | missing p => simp [hc, hf, Found.under] at h
              | blocked below =>
                  obtain rfl : name :: below = here := by simpa [hc, hf, Found.under] using h
                  obtain ⟨hpre, hne, content, hb⟩ := ih hf
                  refine ⟨by simpa using hpre, by simpa using hne, content, ?_⟩
                  simpa [binding?, node?_cons, hc, Node.at?] using hb

end Folder

end PipeShell
