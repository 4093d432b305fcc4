import PipeShell.Proofs.Disk.Tidy
import PipeShell.Proofs.Path.Resolve
import PipeShell.Proofs.Store.Tie

/-!
# Disks that agree along a path

Two disks that hold the same kinds of entries along a path cannot be told apart by a walk along it.
An operation at the end of the path ends alike on both, and changes both in the same way.
-/

namespace PipeShell.Disk

open PipeShell.Action Tie PipeShell.Path

/-- Two nodes that differ inside of a directory at most. -/
inductive SameNode : Option (Node Bytes) → Option (Node Bytes) → Prop
  | none : SameNode none none
  | file (bytes) : SameNode (some (.file bytes)) (some (.file bytes))
  | folder (inside inside') : SameNode (some (.folder inside)) (some (.folder inside'))

/-- Whatever prefix of the segments a walk goes along, the entries that it reaches on the two disks
are alike. -/
structure Agree (d d' : Disk) (segments : List Text) : Prop where
  longestName : d.longestName = d'.longestName
  node : ∀ p, p <+: segments → SameNode (d.tree.node? (Path.walk p)) (d'.tree.node? (Path.walk p))

variable {d d' : Disk} {a : Address} {p segments : List Text} {t : Text}

theorem SameNode.refl (n : Option (Node Bytes)) : SameNode n n := by
  cases n with
  | none => exact .none
  | some n => cases n <;> constructor

theorem sameNode_of_binding (h : d.tree.binding? p = d'.tree.binding? p) :
    SameNode (d.tree.node? p) (d'.tree.node? p) := by
  unfold Folder.binding? at h
  cases hn : d.tree.node? p with
  | none =>
      have hn' : d'.tree.node? p = none := by simpa [hn] using h.symm
      rw [hn']
      exact .none
  | some n =>
      obtain ⟨n', hn', hbinding⟩ := Option.map_eq_some_iff.mp (h.symm.trans (by rw [hn]; rfl))
      rw [hn']
      cases n <;> cases n' <;> cases hbinding <;> constructor

/-! ## Questions -/

theorem isTooLong_eq (h : d.longestName = d'.longestName) (name : Text) :
    d.isTooLong name = d'.isTooLong name := by
  rw [Disk.isTooLong, Disk.isTooLong, h]

theorem walk_eq_of_sameNode (hlong : d.longestName = d'.longestName) {walked : List Text}
    (hnode : ∀ p, p <+: segments →
      SameNode (d.tree.node? (p.foldl step walked).reverse)
        (d'.tree.node? (p.foldl step walked).reverse)) :
    d.walk walked segments = d'.walk walked segments := by
  induction segments generalizing walked with
  | nil => rfl
  | cons name rest ih =>
      have hrest := fun p (hp : p <+: rest) => hnode (name :: p) (by simpa using hp)
      rw [Disk.walk, Disk.walk]
      by_cases hback : name = ['.', '.']
      · rw [if_pos hback, if_pos hback]
        simp only [List.foldl_cons, step, if_pos hback] at hrest
        exact ih hrest
      · simp only [List.foldl_cons, step, if_neg hback] at hrest
        have hhere := hrest [] List.nil_prefix
        rw [if_neg hback, if_neg hback, isTooLong_eq hlong]
        dsimp only [List.foldl_nil] at hhere
        generalize d.tree.node? (name :: walked).reverse = n at hhere
        generalize d'.tree.node? (name :: walked).reverse = n' at hhere
        cases hhere with
        | none => rfl
        | file => rfl
        | folder => rw [ih hrest]

namespace Agree

variable (h : Agree d d' segments)
include h

theorem above (hp : p <+: segments) : Agree d d' p :=
  ⟨h.longestName, fun q hq => h.node q (hq.trans hp)⟩

theorem self : SameNode (d.tree.node? (Path.walk segments)) (d'.tree.node? (Path.walk segments)) :=
  h.node segments List.prefix_rfl

theorem walk : d.walk [] segments = d'.walk [] segments :=
  walk_eq_of_sameNode h.longestName h.node

theorem place : d.place segments = d'.place segments := by
  rw [Disk.place, Disk.place]
  cases segments.getLast? with
  | none => rfl
  | some name =>
      have habove := h.above (List.dropLast_prefix segments)
      simp only [← habove.walk]
      cases hw : d.walk [] segments.dropLast with
      | error e => rfl
      | ok above =>
          have hnode : SameNode (d.tree.node? above) (d'.tree.node? above) := by
            rw [walk_eq_ok hw]
            exact habove.self
          rw [Attempt.ok_bind, Attempt.ok_bind, isTooLong_eq h.longestName]
          generalize d.tree.node? above = n at hnode
          generalize d'.tree.node? above = n' at hnode
          cases hnode <;> rfl

/-- What is found at the end of a walk differs inside of a directory at most. -/
theorem found :
    (∃ e, d.node segments = .error e ∧ d'.node segments = .error e)
      ∨ ∃ n n', d.node segments = .ok n ∧ d'.node segments = .ok n'
        ∧ SameNode (some n) (some n') := by
  rw [Disk.node, Disk.node, ← h.walk]
  cases hw : d.walk [] segments with
  | error e => exact .inl ⟨e, rfl, rfl⟩
  | ok path =>
      have hnode : SameNode (d.tree.node? path) (d'.tree.node? path) := by
        rw [walk_eq_ok hw]
        exact h.self
      rw [Attempt.ok_bind, Attempt.ok_bind]
      generalize d.tree.node? path = n at hnode
      generalize d'.tree.node? path = n' at hnode
      cases hnode with
      | none => exact .inl ⟨_, rfl, rfl⟩
      | file bytes => exact .inr ⟨_, _, rfl, rfl, .file bytes⟩
      | folder inside inside' => exact .inr ⟨_, _, rfl, rfl, .folder inside inside'⟩

variable (ha : a.segmentsFrom d.workingDirectory = segments)
  (ha' : a.segmentsFrom d'.workingDirectory = segments)
include ha ha'

theorem probe :
    (∃ f, d.probe a = .error f ∧ d'.probe a = .error f)
      ∨ ∃ n n', d.probe a = .ok n ∧ d'.probe a = .ok n' ∧ SameNode n n' := by
  rw [Disk.probe, Disk.probe, ha, ha']
  by_cases hnull : a.hasNull = true
  · simp only [hnull, if_true]
    exact .inr ⟨none, none, rfl, rfl, .none⟩
  · simp only [hnull, Bool.false_eq_true, if_false]
    rcases h.found with ⟨e, he, he'⟩ | ⟨n, n', hn, hn', hnode⟩
    · rw [he, he']
      cases e with
      | nameTooLong => exact .inl ⟨_, rfl, rfl⟩
      | _ => exact .inr ⟨none, none, rfl, rfl, .none⟩
    · rw [hn, hn']
      exact .inr ⟨_, _, rfl, rfl, hnode⟩

theorem isDirectory : d.isDirectory a = d'.isDirectory a := by
  rw [Disk.isDirectory, Disk.isDirectory]
  rcases h.probe ha ha' with ⟨f, hf, hf'⟩ | ⟨n, n', hn, hn', hnode⟩
  · rw [hf, hf']
  · rw [hn, hn']
    cases hnode <;> rfl

end Agree

/-! ## Changes -/

/-- From related disks the address leads along these segments, where the disks agree, and an entry
put at their end keeps the disks related. -/
structure Follows (tie : Tie Disk) (a : Address) (segments : List Text) : Prop where
  leads : ∀ d d', tie.states d d' → a.segmentsFrom d.workingDirectory = segments
    ∧ a.segmentsFrom d'.workingDirectory = segments
  agree : ∀ d d', tie.states d d' → Agree d d' segments
  put : ∀ d d' n, tie.states d d' → n.Tidy (fun _ => True) →
    d.tree.binding? (Path.walk segments).dropLast = some .directory →
    d.tree.binding? (Path.walk segments) ≠ some .directory →
    tie.states { d with tree := d.tree.alter (Path.walk segments) fun _ => some n }
      { d' with tree := d'.tree.alter (Path.walk segments) fun _ => some n }

namespace Follows

variable {tie : Tie Disk} (hf : Follows tie a segments)
include hf

theorem made (h : tie.states d d') :
    (∃ e, d.makeDirectory segments = .error e ∧ d'.makeDirectory segments = .error e)
      ∨ ∃ made made', d.makeDirectory segments = .ok made ∧ d'.makeDirectory segments = .ok made'
        ∧ tie.states made made' := by
  have hagree := hf.agree d d' h
  rw [makeDirectory, makeDirectory, ← hagree.place]
  cases hp : d.place segments with
  | error e => exact .inl ⟨e, rfl, rfl⟩
  | ok path =>
      obtain ⟨rfl, hdir⟩ := place_eq_ok hp
      have hnode := hagree.self
      rw [Attempt.ok_bind, Attempt.ok_bind]
      cases hn : d.tree.node? (Path.walk segments) with
      | none =>
          rw [hn] at hnode
          generalize d'.tree.node? (Path.walk segments) = n' at hnode
          cases hnode
          refine .inr ⟨_, _, rfl, rfl, hf.put d d' _ h trivial hdir ?_⟩
          simp [Folder.binding?, hn]
      | some n =>
          rw [hn] at hnode
          generalize d'.tree.node? (Path.walk segments) = n' at hnode
          cases hnode <;> exact .inl ⟨_, rfl, rfl⟩

theorem missing_iff (h : tie.states d d') :
    d.makeDirectory segments = .error .noEntry ↔ d'.makeDirectory segments = .error .noEntry := by
  rcases hf.made h with ⟨e, he, he'⟩ | ⟨made, made', hm, hm', -⟩
  · rw [he, he']
  · rw [hm, hm']
    simp

theorem alike_makeOrKeep : tie.Alike (makeOrKeep a) fun _ => True := by
  intro d d' h
  obtain ⟨ha, ha'⟩ := hf.leads d d' h
  have hdirectory := (hf.agree d d' h).isDirectory ha ha'
  dsimp only [outcome, makeOrKeep]
  rw [ha, ha']
  rcases hf.made h with ⟨e, he, he'⟩ | ⟨made, made', hm, hm', hstates⟩
  · rw [he, he', ← hdirectory]
    cases e with
    | noEntry => exact .failed (.inl rfl) h
    | _ =>
        cases d.isDirectory a with
        | error f => exact .failed (.inl rfl) h
        | ok found =>
            cases found with
            | true => exact .gave ⟨rfl, trivial⟩ h
            | false => exact .failed (.inl rfl) h
  · rw [hm, hm']
    exact .gave ⟨rfl, trivial⟩ hstates

theorem alike_write (bytes : Bytes) : tie.Alike (write a bytes) fun _ => True := by
  intro d d' h
  obtain ⟨ha, ha'⟩ := hf.leads d d' h
  have hagree := hf.agree d d' h
  dsimp only [outcome, write]
  rw [ha, ha', ← hagree.place]
  by_cases hnull : a.hasNull = true
  · rw [if_pos hnull, if_pos hnull]
    exact .failed (.inl rfl) h
  · rw [if_neg hnull, if_neg hnull]
    cases hp : d.place segments with
    | error e => exact .failed (.inl rfl) h
    | ok path =>
        obtain ⟨rfl, hdir⟩ := place_eq_ok hp
        have hnode := hagree.self
        have hwrite := hf.put d d' (.file bytes) h trivial hdir
        dsimp only [Folder.write, Folder.binding?] at hwrite ⊢
        generalize d.tree.node? (Path.walk segments) = n at hnode hwrite ⊢
        generalize d'.tree.node? (Path.walk segments) = n' at hnode ⊢
        cases hnode with
        | none => exact .gave ⟨rfl, trivial⟩ (hwrite (by simp))
        | file former => exact .gave ⟨rfl, trivial⟩ (hwrite (by simp))
        | folder => exact .failed (.inl rfl) h

theorem alike_writeText (encoding : Encoding) (t : Text) :
    tie.Alike (writeText encoding a t) fun _ => True := by
  rw [writeText]
  split
  · exact hf.alike_write _
  · exact (hf.alike_write []).bind fun _ _ => alike_throw _

end Follows

section Directories

variable {tie : Tie Disk} {slash : Text}

theorem alike_makeDirectories {above : List Text}
    (hf : ∀ parts, parts <+: above.reverse → ∃ segments, Follows tie ⟨slash, parts⟩ segments) :
    tie.Alike (makeDirectories slash above) fun _ => True := by
  induction above with
  | nil =>
      obtain ⟨segments, hself⟩ := hf [] List.prefix_rfl
      exact hself.alike_makeOrKeep
  | cons name above ih =>
      have habove : above.reverse <+: (name :: above).reverse := by simp
      obtain ⟨segments, hself⟩ := hf (name :: above).reverse List.prefix_rfl
      have hkept := hself.alike_makeOrKeep
      intro d d' h
      obtain ⟨ha, ha'⟩ := hself.leads d d' h
      have hsame := hself.missing_iff h
      -- Both disks try the directory itself first, and go up only if the one above it is missing.
      by_cases hmissing : d.makeDirectory segments = .error .noEntry
      · rw [outcome_makeDirectories_missing (by rwa [ha]),
          outcome_makeDirectories_missing (by rw [ha']; exact hsame.mp hmissing)]
        have hmade := ih fun parts hparts => hf parts (hparts.trans habove)
        exact (hmade.bind fun _ _ => hkept) d d' h
      · rw [outcome_makeDirectories_found (by rwa [ha]),
          outcome_makeDirectories_found (by rw [ha']; exact mt hsame.mpr hmissing)]
        exact hkept d d' h

theorem alike_ensureDirectory
    (hf : ∀ parts, parts <+: a.parts → ∃ segments, Follows tie ⟨a.root, parts⟩ segments) :
    tie.Alike (ensureDirectory a) fun _ => True :=
  alike_ite (fun _ => alike_throw _) fun _ => alike_makeDirectories (by simpa using hf)

end Directories

end PipeShell.Disk
