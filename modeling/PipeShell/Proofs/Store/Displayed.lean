import PipeShell.Proofs.Path.Segments
import PipeShell.Failure

/-!
# Paths in failures

The paths that the wording of a failure shows, with the slash of the root in front. An operation on a
path fails with that path, or with the path of an entry on the way to it.
-/

namespace PipeShell.Failure

/-- The paths that the wording of a failure shows. -/
def displayed : Failure → List Text
  | noSuchEntry path | noSuchDirectory path | noSuchChild _ path | childExists _ path
  | notADirectory path | isADirectory path | invalidFilePath path | directoryCopy path
  | directoryMove path | escapesRoot path => [path]
  | sourceKept path cause => path :: cause.displayed
  | _ => []

/-- All the paths that the failure shows lead to `path`. -/
def Along (path : Text) (f : Failure) : Prop :=
  ∀ p ∈ f.displayed, p = path ∨ ∃ here, here <+: Path.segments path ∧ p = Path.ofSegments here

theorem display_infix_append {before : Text} (h : before.getLast? = some '/') (path after : Text) :
    Path.display path <:+: before ++ path ++ after := by
  obtain ⟨front, rfl⟩ := List.getLast?_eq_some_iff.mp h
  exact ⟨front, after, by simp [Path.display]⟩

theorem display_infix {before : Text} (h : before.getLast? = some '/') (path : Text) :
    Path.display path <:+: before ++ path := by
  simpa using display_infix_append h path []

theorem message_sourceKept (path : Text) (cause : Failure) :
    (sourceKept path cause).message
      = "Failed to complete rename: could not delete original file \"/" ++ path ++ "\". Error: "
        ++ cause.message := rfl

/-- The wording shows the paths after a slash. -/
theorem display_infix_message {f : Failure} {path : Text} (h : path ∈ f.displayed) :
    Path.display path <:+: f.message := by
  induction f with
  | noSuchEntry p | noSuchDirectory p | notADirectory p | isADirectory p | invalidFilePath p
  | directoryCopy p | directoryMove p | escapesRoot p =>
      obtain rfl := List.mem_singleton.mp h
      exact display_infix (by decide) path
  | noSuchChild name p | childExists name p =>
      obtain rfl := List.mem_singleton.mp h
      exact display_infix (by rw [List.getLast?_append]; rfl) path
  | sourceKept p cause ih =>
      rw [message_sourceKept]
      rcases List.mem_cons.mp h with rfl | h
      · rw [List.append_assoc]
        exact display_infix_append (by decide) path _
      · exact (ih h).trans (List.suffix_append _ _).isInfix
  | _ => exact absurd h (by simp [displayed])

/-- The failure shows no path. -/
def Silent (f : Failure) : Prop :=
  f.displayed = []

theorem along_silent {path : Text} {f : Failure} (h : f.Silent) : f.Along path := by
  intro p hp
  rw [h] at hp
  cases hp

theorem along_self {path : Text} {f : Failure} (h : f.displayed = [path]) : f.Along path := by
  intro p hp
  rw [h] at hp
  exact Or.inl (List.mem_singleton.mp hp)

theorem along_join {path : Text} {f : Failure} (h : f.displayed = [Path.join [path]]) :
    f.Along path := by
  intro p hp
  rw [h] at hp
  refine Or.inr ⟨Path.segments path, List.prefix_rfl, ?_⟩
  rw [List.mem_singleton.mp hp, Path.join, List.flatMap_singleton]

theorem along_sourceKept {path : Text} {cause : Failure} (h : cause.Along path) :
    (sourceKept path cause).Along path := by
  intro p hp
  rcases List.mem_cons.mp hp with rfl | hp
  · exact Or.inl rfl
  · exact h p hp

theorem Along.of_parent {path : Text} {f : Failure}
    (h : f.Along (Path.parentAndName path).1) : f.Along path := by
  have hup : Path.segments (Path.parentAndName path).1 <+: Path.segments path := by
    rw [Path.segments_parent]
    exact List.dropLast_prefix _
  intro p hp
  rcases h p hp with rfl | ⟨here, hpre, rfl⟩
  · exact Or.inr ⟨_, List.dropLast_prefix _, rfl⟩
  · exact Or.inr ⟨here, hpre.trans hup, rfl⟩

end PipeShell.Failure
