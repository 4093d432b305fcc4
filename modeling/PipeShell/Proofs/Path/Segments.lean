import PipeShell.Path
import PipeShell.Proofs.Text.Pieces

/-!
# Segments of paths

Cutting a path into its segments and joining segments to a path undo each other on segments. A name
is a segment that does not step back; a path is in normal form when its pieces are names.
-/

namespace PipeShell.Path

/-- The text can stand between the slashes of a path and counts there. -/
structure IsSegment (s : Text) : Prop where
  ne_nil : s ≠ []
  ne_here : s ≠ ['.']
  slashless : '/' ∉ s

/-- The text is a segment that does not step back. -/
structure IsName (s : Text) : Prop extends IsSegment s where
  ne_back : s ≠ ['.', '.']

instance (s : Text) : Decidable (IsSegment s) :=
  decidable_of_iff (s ≠ [] ∧ s ≠ ['.'] ∧ '/' ∉ s)
    ⟨fun h => ⟨h.1, h.2.1, h.2.2⟩, fun h => ⟨h.ne_nil, h.ne_here, h.slashless⟩⟩

instance (s : Text) : Decidable (IsName s) :=
  decidable_of_iff (IsSegment s ∧ s ≠ ['.', '.'])
    ⟨fun h => ⟨h.1, h.2⟩, fun h => ⟨h.toIsSegment, h.ne_back⟩⟩

/-- No segment of the path steps back. -/
def Forward (path : Text) : Prop :=
  ∀ s ∈ segments path, IsName s

/-- A path in normal form: no slash in front, and every piece between slashes is a name. The root is
the empty path. -/
structure Normal (path : Text) : Prop where
  relative : isAbsolute path = false
  names : path ≠ [] → ∀ s ∈ Text.pieces (· == '/') path, IsName s

/-! ## Segments -/

theorem mem_segments {path s : Text} :
    s ∈ segments path ↔ s ∈ Text.pieces (· == '/') path ∧ s ≠ [] ∧ s ≠ ['.'] := by
  simp [segments]

theorem isSegment_of_mem_segments {path s : Text} (h : s ∈ segments path) : IsSegment s := by
  obtain ⟨hp, hn, hh⟩ := mem_segments.mp h
  refine ⟨hn, hh, fun hs => ?_⟩
  simpa using Text.not_cut_of_mem_pieces hp '/' hs

theorem isSegment_segments (path : Text) : ∀ s ∈ segments path, IsSegment s :=
  fun _ => isSegment_of_mem_segments

theorem mem_of_mem_segments {path s : Text} (h : s ∈ segments path) {c : Char} (hc : c ∈ s) :
    c ∈ path := by
  rw [← Text.join_pieces '/' path]
  exact (Text.infix_join _ (mem_segments.mp h).1).subset hc

@[simp] theorem segments_nil : segments [] = [] := rfl

theorem segments_eq_pieces {path : Text}
    (h : ∀ s ∈ Text.pieces (· == '/') path, IsSegment s) :
    segments path = Text.pieces (· == '/') path := by
  unfold segments
  rw [List.filter_eq_self]
  intro s hs
  simp [(h s hs).ne_nil, (h s hs).ne_here]

theorem segments_append_slash (p q : Text) :
    segments (p ++ '/' :: q) = segments p ++ segments q := by
  unfold segments
  rw [Text.pieces_append_cons p q (by simp), List.filter_append]

theorem segments_of_isSegment {s : Text} (h : IsSegment s) : segments s = [s] := by
  have hp : Text.pieces (· == '/') s = [s] :=
    Text.pieces_of_uncut fun c hc => by
      have : c ≠ '/' := fun e => h.slashless (e ▸ hc)
      simpa using this
  rw [segments_eq_pieces (by simpa [hp] using h), hp]

/-- Joining paths with slashes puts their segments one after another. -/
theorem segments_ofSegments_eq_flatMap (paths : List Text) :
    segments (ofSegments paths) = paths.flatMap segments := by
  induction paths with
  | nil => rfl
  | cons p paths ih =>
      cases paths with
      | nil => simp [ofSegments]
      | cons q paths =>
          have hj : ofSegments (p :: q :: paths) = p ++ '/' :: ofSegments (q :: paths) := by
            simp [ofSegments, Text.join]
          rw [hj, segments_append_slash, ih]
          simp

theorem flatMap_segments {names : List Text} (h : ∀ s ∈ names, IsSegment s) :
    names.flatMap segments = names := by
  induction names with
  | nil => rfl
  | cons s names ih =>
      rw [List.flatMap_cons, segments_of_isSegment (h s (by simp)),
        ih fun t ht => h t (by simp [ht])]
      rfl

@[simp] theorem segments_ofSegments {names : List Text} (h : ∀ s ∈ names, IsSegment s) :
    segments (ofSegments names) = names := by
  rw [segments_ofSegments_eq_flatMap, flatMap_segments h]

theorem isSegment_flatMap {paths : List Text} :
    ∀ s ∈ paths.flatMap segments, IsSegment s := by
  intro s hs
  obtain ⟨p, _, hs⟩ := List.mem_flatMap.mp hs
  exact isSegment_of_mem_segments hs

@[simp] theorem segments_join (paths : List Text) :
    segments (join paths) = paths.flatMap segments :=
  segments_ofSegments isSegment_flatMap

theorem segments_parent (path : Text) :
    segments (parentAndName path).1 = (segments path).dropLast :=
  segments_ofSegments fun _ hs => isSegment_of_mem_segments (List.dropLast_subset _ hs)

theorem ofSegments_injective {names names' : List Text} (h : ∀ s ∈ names, IsSegment s)
    (h' : ∀ s ∈ names', IsSegment s) (e : ofSegments names = ofSegments names') :
    names = names' := by
  rw [← segments_ofSegments h, ← segments_ofSegments h', e]

/-! ## Normal form -/

theorem ofSegments_not_absolute {names : List Text} (h : ∀ s ∈ names, IsSegment s) :
    isAbsolute (ofSegments names) = false := by
  cases names with
  | nil => rfl
  | cons s ss =>
      have hs := h s (by simp)
      cases s with
      | nil => exact absurd rfl hs.ne_nil
      | cons c t =>
          have hc : c ≠ '/' := fun e => hs.slashless (by simp [e])
          cases ss <;> simp [ofSegments, Text.join, isAbsolute, hc]

theorem normal_ofSegments {names : List Text} (h : ∀ s ∈ names, IsName s) :
    Normal (ofSegments names) where
  relative := ofSegments_not_absolute fun s hs => (h s hs).toIsSegment
  names hne := by
    have hn : names ≠ [] := by
      rintro rfl
      exact hne rfl
    rw [ofSegments, Text.pieces_join (fun s hs => (h s hs).slashless) hn]
    exact h

theorem Normal.forward {path : Text} (h : Normal path) : Forward path := by
  intro s hs
  obtain ⟨hp, hn, _⟩ := mem_segments.mp hs
  refine h.names ?_ s hp
  rintro rfl
  simp at hp
  exact hn hp

theorem Normal.ofSegments_segments {path : Text} (h : Normal path) :
    ofSegments (segments path) = path := by
  by_cases hp : path = []
  · rw [hp]
    rfl
  · rw [segments_eq_pieces fun s hs => (h.names hp s hs).toIsSegment, ofSegments, Text.join_pieces]

theorem Normal.join_eq {path : Text} (h : Normal path) : join [path] = path := by
  rw [join, List.flatMap_singleton, h.ofSegments_segments]

theorem normal_iff_exists_names {path : Text} :
    Normal path ↔ ∃ names, (∀ s ∈ names, IsName s) ∧ path = ofSegments names := by
  constructor
  · intro h
    exact ⟨segments path, h.forward, h.ofSegments_segments.symm⟩
  · rintro ⟨names, h, rfl⟩
    exact normal_ofSegments h

@[simp] theorem normal_nil : Normal [] := ⟨rfl, fun h => absurd rfl h⟩

theorem normal_join {paths : List Text} (h : ∀ path ∈ paths, Forward path) : Normal (join paths) := by
  refine normal_ofSegments fun s hs => ?_
  obtain ⟨path, hp, hs⟩ := List.mem_flatMap.mp hs
  exact h path hp s hs

theorem forward_name {path : Text} (h : Forward path) : Forward (name path) := by
  cases hl : (segments path).getLast? with
  | none => simp [Forward, name, parentAndName, List.getLast?_eq_none_iff.mp hl]
  | some t =>
      obtain rfl : name path = t := by simp [name, parentAndName, List.getLastD_eq_getLast?, hl]
      have ht := h _ (List.mem_of_getLast? hl)
      rw [Forward, segments_of_isSegment ht.toIsSegment]
      simpa using ht

end PipeShell.Path
