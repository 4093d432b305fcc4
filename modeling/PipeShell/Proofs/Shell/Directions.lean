import PipeShell.Proofs.Path.Composed
import PipeShell.Proofs.Shell.Allowed

/-!
# Going along directories

Directories that a shell enters one after another lead to where their paths lead when they are
joined, and what the shell shows as its working directory leads back there from anywhere.
-/

namespace PipeShell

open PipeShell.Path (Normal isAbsolute display)

/-- The state with another working directory. -/
def ShellState.inDirectory (s : ShellState) (cwd : Text) : ShellState :=
  { s with shell := { s.shell with cwd } }

/-- Whether there is a directory at the path. The root always is one. -/
def ShellState.entrance (s : ShellState) (path : Text) : Except Failure Bool :=
  if path = [] then .ok true else ((Store.isDirectory path).outcome s.world).1

namespace Command

open PipeShell.Action

variable {s t : ShellState} {path : Text} {r : Result}

/-! ## One directory -/

theorem outcome_isDirectory_eq (path : Text) (w : World) :
    (Store.isDirectory path).outcome w = (((Store.isDirectory path).outcome w).1, w) :=
  Prod.ext rfl (Pairing.outcome_ask_snd _ _ w)

/-- The directory at a path is entered if there is one, and else nothing changes. -/
theorem outcome_changeDirectory (path : Text) (s : ShellState) :
    (changeDirectory [(.path, .text path)]).outcome s
      = match s.entrance (s.shell.resolve (some path)) with
        | .ok true => (.ok (.ok []), s.inDirectory (s.shell.resolve (some path)))
        | .ok false =>
            (.ok (.fail ("Not a directory: " ++ display (s.shell.resolve (some path)))), s)
        | .error f => (.error f, s) := by
  rw [changeDirectory]
  split
  · rename_i hnone
    cases hnone
  · rename_i hslash
    obtain rfl : path = ['/'] := Option.some.inj hslash
    rfl
  · rename_i found _ hfound
    obtain rfl : path = found := Option.some.inj hfound
    rw [outcome_bind, outcome_resolve]
    by_cases hroot : s.shell.resolve (some path) = []
    · simp only [hroot, ShellState.entrance, if_true]
      rfl
    · rw [ShellState.entrance, if_neg hroot]
      simp only [hroot, if_false, outcome_bind, outcome_liftM_world]
      rw [outcome_isDirectory_eq]
      rcases ((Store.isDirectory (s.shell.resolve (some path))).outcome s.world).1 with f | _ | _
      · rfl
      · rfl
      · rfl

theorem outcome_changeDirectory_entered (h : s.entrance (s.shell.resolve (some path)) = .ok true) :
    (changeDirectory [(.path, .text path)]).outcome s
      = (.ok (.ok []), s.inDirectory (s.shell.resolve (some path))) := by
  rw [outcome_changeDirectory, h]

theorem eq_inDirectory_of_succeeded
    (h : (changeDirectory [(.path, .text path)]).outcome s = (.ok r, t)) (hr : r.succeeded = true) :
    t = s.inDirectory (s.shell.resolve (some path)) := by
  rw [outcome_changeDirectory] at h
  split at h
  · exact (congrArg Prod.snd h).symm
  · obtain rfl := Except.ok.inj (congrArg Prod.fst h)
    cases hr
  · cases congrArg Prod.fst h

end Command

namespace ShellState

open PipeShell.Action
open Command (changeDirectory printWorkingDirectory)
open PipeShell.Path (resolve)

variable {s t : ShellState} {p : Text} {paths : List Text}

/-! ## Several directories -/

/-- A shell enters the directories at the paths one after another. -/
inductive Goes : ShellState → List Text → ShellState → Prop
  | stays (s : ShellState) : Goes s [] s
  | enters {s t u : ShellState} {r : Result} {path : Text} {paths : List Text} :
      (changeDirectory [(.path, .text path)]).outcome s = (.ok r, t) → r.succeeded = true →
      Goes t paths u → Goes s (path :: paths) u

theorem isAbsolute_join (h : ∀ p ∈ paths, p ≠ [] ∧ isAbsolute p = false) :
    isAbsolute (Text.join ['/'] paths) = false := by
  cases paths with
  | nil => rfl
  | cons p paths =>
      obtain ⟨hne, hp⟩ := h p (by simp)
      by_cases hlast : paths = []
      · rwa [hlast, Text.join_singleton]
      · rw [Text.join_cons _ _ hlast, List.append_assoc, Path.isAbsolute_append hne, hp]

theorem resolve_join_cons {cwd : Text} (hc : Normal cwd)
    (h : ∀ q ∈ p :: paths, q ≠ [] ∧ isAbsolute q = false) :
    resolve (resolve cwd (some p)) (some (Text.join ['/'] paths))
      = resolve cwd (some (Text.join ['/'] (p :: paths))) := by
  obtain ⟨⟨hne, hp⟩, hpaths⟩ := List.forall_mem_cons.mp h
  by_cases hlast : paths = []
  · rw [hlast, Text.join_singleton]
    exact Path.resolve_nil (Path.normal_resolve_relative hc hp)
  · rw [Path.resolve_resolve hc hne hp (isAbsolute_join hpaths), Text.join_cons _ _ hlast]
    simp

/-- The directories that are entered lead to where their joined paths lead. -/
theorem Goes.eq_inDirectory (h : Goes s paths t) (hs : Normal s.shell.cwd)
    (hpaths : ∀ p ∈ paths, p ≠ [] ∧ isAbsolute p = false) :
    t = s.inDirectory (resolve s.shell.cwd (some (Text.join ['/'] paths))) := by
  induction h with
  | stays s => exact (congrArg s.inDirectory (Path.resolve_nil hs)).symm
  | @enters s t u r p paths hone hr hmore ih =>
      obtain ⟨⟨-, hp⟩, hrest⟩ := List.forall_mem_cons.mp hpaths
      have ht := Command.eq_inDirectory_of_succeeded hone hr
      have hnormal : Normal t.shell.cwd := by
        rw [ht]
        exact Path.normal_resolve_relative hs hp
      rw [ih hnormal hrest, ht, ← resolve_join_cons hs hpaths]
      rfl

/-! ## There and back -/

/-- Resolving paths one after another is resolving them joined, so a shell may go to a directory
step by step; and the path that a shell shows for its working directory leads there from
anywhere. -/
theorem directories_compose :
    (∀ cwd p q, Normal cwd → p ≠ [] → isAbsolute p = false → q ≠ [] → isAbsolute q = false →
        resolve (resolve cwd (some p)) (some q) = resolve cwd (some (p ++ '/' :: q)))
      ∧ (∀ path, Normal path → ∀ cwd, resolve cwd (some (display path)) = path)
      ∧ ∀ s : ShellState, Normal s.shell.cwd →
        (∀ paths t, (∀ p ∈ paths, p ≠ [] ∧ isAbsolute p = false) → Goes s paths t →
          t = s.inDirectory (resolve s.shell.cwd (some (Text.join ['/'] paths))))
        ∧ ∃ shown, printWorkingDirectory.outcome s = (.ok (.ok shown), s)
          ∧ ∀ t : ShellState, t.entrance s.shell.cwd = .ok true →
            (changeDirectory [(.path, .text shown)]).outcome t
              = (.ok (.ok []), t.inDirectory s.shell.cwd) := by
  refine ⟨fun cwd p q hc hne hp _ hq => Path.resolve_resolve hc hne hp hq,
    fun path hpath cwd => Path.resolve_display hpath cwd,
    fun s hs => ⟨fun paths t hpaths hgoes => hgoes.eq_inDirectory hs hpaths,
      s.shell.pwd, rfl, fun t ht => ?_⟩⟩
  have hback : t.shell.resolve (some s.shell.pwd) = s.shell.cwd :=
    Path.resolve_display hs t.shell.cwd
  rw [Command.outcome_changeDirectory_entered (by rwa [hback]), hback]

/-- A shell in the lower one of two directories. -/
def belowDocs : ShellState where
  shell := { cwd := "docs/a" }
  world := { backing := .memory ⟨.folder "docs" (.folder ['a'] .empty .empty) .empty, 10⟩ }

/-- Out of the lower directory past the root, and from there into the upper one; and back. -/
theorem directories_compose_past_root :
    Normal belowDocs.shell.cwd ∧ isAbsolute "../../.." = false ∧ isAbsolute ".//docs/" = false
      ∧ resolve (resolve "docs/a" (some "../../..")) (some ".//docs/")
        = resolve "docs/a" (some "../../.././/docs/")
      ∧ resolve ['b'] (some (display "docs/a")) = "docs/a"
      ∧ Goes belowDocs ["../../..", ".//docs/"] (belowDocs.inDirectory "docs")
      ∧ belowDocs.inDirectory "docs"
        = belowDocs.inDirectory (resolve "docs/a" (some "../../.././/docs/"))
      ∧ ∃ shown, printWorkingDirectory.outcome belowDocs = (.ok (.ok shown), belowDocs)
        ∧ (changeDirectory [(.path, .text shown)]).outcome (belowDocs.inDirectory "docs")
          = (.ok (.ok []), belowDocs) := by
  have hcwd : Normal belowDocs.shell.cwd := ⟨rfl, fun _ => by decide⟩
  have honward : ∀ p ∈ [("../../.." : Text), ".//docs/"], p ≠ [] ∧ isAbsolute p = false := by
    decide
  have hgoes : Goes belowDocs ["../../..", ".//docs/"] (belowDocs.inDirectory "docs") :=
    .enters (r := .ok []) rfl rfl (.enters (r := .ok []) rfl rfl (.stays _))
  obtain ⟨htwo, hback, hstate⟩ := directories_compose
  obtain ⟨hsteps, shown, hshown, hreturn⟩ := hstate belowDocs hcwd
  exact ⟨hcwd, rfl, rfl, htwo _ _ _ hcwd (by decide) rfl (by decide) rfl, hback _ hcwd _, hgoes,
    hsteps _ _ honward hgoes, shown, hshown, hreturn _ rfl⟩

end ShellState

end PipeShell
