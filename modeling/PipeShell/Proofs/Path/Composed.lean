import PipeShell.Proofs.Path.Resolve

/-!
# Paths one after another

A relative path may be resolved piece by piece: where its rest leads from the place that its first
part leads to is where the whole path leads. The walk stops at the root in the same steps either
way.
-/

namespace PipeShell.Path

variable {cwd p q : Text}

/-- A walk may be interrupted: it goes on from the segments that it has reached. -/
theorem walk_walk_append (front back : List Text) :
    walk (walk front ++ back) = walk (front ++ back) := by
  have hreached : (walk front).foldl step [] = front.foldl step [] :=
    List.reverse_inj.mp (walk_of_forward fun _ hs => (mem_walk hs).2)
  rw [walk, List.foldl_append, hreached, walk, List.foldl_append]

theorem isAbsolute_append (hne : p ≠ []) (q : Text) : isAbsolute (p ++ q) = isAbsolute p := by
  obtain ⟨c, t, rfl⟩ := List.exists_cons_of_ne_nil hne
  rfl

theorem not_keepsOwnRoot_of_relative (hp : isAbsolute p = false) : ¬KeepsOwnRoot p :=
  fun h => h.1 (ownRoot_of_relative hp)

theorem resolve_relative (hc : Normal cwd) (hp : isAbsolute p = false) :
    resolve cwd (some p) = ofSegments (walk (segments cwd ++ segments p)) := by
  rw [resolve_of_not_keepsOwnRoot hc (not_keepsOwnRoot_of_relative hp), trail_eq_walk, hp]
  rfl

theorem normal_resolve_relative (hc : Normal cwd) (hp : isAbsolute p = false) :
    Normal (resolve cwd (some p)) :=
  normal_resolve hc (not_keepsOwnRoot_of_relative hp)

theorem segments_resolve_relative (hc : Normal cwd) (hp : isAbsolute p = false) :
    segments (resolve cwd (some p)) = walk (segments cwd ++ segments p) := by
  rw [resolve_relative hc hp]
  refine segments_ofSegments fun s hs => (isName_of_mem_walk ?_ s hs).toIsSegment
  intro s hs
  rcases List.mem_append.mp hs with hs | hs <;> exact isSegment_of_mem_segments hs

/-- Resolving one path after another is resolving them with a slash in between. -/
theorem resolve_resolve (hc : Normal cwd) (hne : p ≠ []) (hp : isAbsolute p = false)
    (hq : isAbsolute q = false) :
    resolve (resolve cwd (some p)) (some q) = resolve cwd (some (p ++ '/' :: q)) := by
  have hboth : isAbsolute (p ++ '/' :: q) = false := (isAbsolute_append hne _).trans hp
  rw [resolve_relative (normal_resolve_relative hc hp) hq, segments_resolve_relative hc hp,
    walk_walk_append, resolve_relative hc hboth, segments_append_slash, List.append_assoc]

theorem resolve_nil (hc : Normal cwd) : resolve cwd (some []) = cwd := by
  rw [resolve_relative hc rfl, segments_nil, List.append_nil,
    walk_of_forward fun s hs => (hc.forward s hs).ne_back, hc.ofSegments_segments]

end PipeShell.Path
