import PipeShell.Proofs.Disk.Agree

/-!
# Disks that are the same below one root

Two disks that hold the same at a root, and directories above it, cannot be told apart by addresses
at that root or below it. Operations at such addresses end alike, change both disks in the same way
below the root, and leave all other entries alone.
-/

namespace PipeShell.Disk

open PipeShell.Action Tie PipeShell.Path

/-- The two disks hold the same at the root, and all that stands above it are directories. -/
structure SameInside (root : List Text) (d d' : Disk) : Prop where
  longestName : d.longestName = d'.longestName
  distinct : d.tree.Distinct
  distinct' : d'.tree.Distinct
  above : ∀ p, p <+: root → p ≠ root →
    d.tree.binding? p = some .directory ∧ d'.tree.binding? p = some .directory
  inside : d.tree.node? root = d'.tree.node? root

/-- What the disk holds that is not at the root or below it stays. -/
structure KeptOutside (root : List Text) (d d' : Disk) : Prop where
  same : d' = { d with tree := d'.tree }
  outside : ∀ p, ¬root <+: p → d'.tree.binding? p = d.tree.binding? p

/-- Two disks that hold the same at the root, and each of which holds outside of it what another
disk does. -/
def inside (root : List Text) (start start' : Disk) : Tie Disk :=
  ⟨fun d d' => SameInside root d d' ∧ KeptOutside root start d ∧ KeptOutside root start' d', False,
    fun _ => False⟩

variable {root p : List Text} {start start' d d' : Disk}
  {change : Option (Node Bytes) → Option (Node Bytes)}

theorem KeptOutside.refl (root : List Text) (d : Disk) : KeptOutside root d d :=
  ⟨rfl, fun _ _ => rfl⟩

theorem sameInside_self (hd : d.tree.Distinct) (hroot : d.tree.binding? root = some .directory) :
    SameInside root d d where
  longestName := rfl
  distinct := hd
  distinct' := hd
  above _ hp _ := ⟨Folder.directory_above hroot hp, Folder.directory_above hroot hp⟩
  inside := rfl

/-! ## Questions -/

/-- The path leads to the root or below it, without stepping back. -/
structure Below (root path : List Text) : Prop where
  below : root <+: path
  forward : ∀ s ∈ path, s ≠ ['.', '.']

theorem Below.node_of_node (hp : Below root p) {n : Node Bytes} (h : d.node p = .ok n) :
    d.tree.node? p = some n := by
  rw [node] at h
  cases hw : d.walk [] p with
  | error e => simp [hw] at h
  | ok path =>
      obtain rfl : path = p := (walk_eq_ok hw).trans (walk_of_forward hp.forward)
      rw [hw, Attempt.ok_bind] at h
      split at h
      · rename_i found hfound
        cases h
        exact hfound
      · cases h

theorem Below.node_of_probe (hp : Below root p) {n : Node Bytes}
    (h : d.probe (.ofSegments p) = .ok (some n)) : d.tree.node? p = some n := by
  obtain ⟨path, hw, hn⟩ := Disk.node_of_probe h
  obtain rfl : path = p := (walk_eq_ok hw).trans (walk_of_forward hp.forward)
  exact hn

namespace SameInside

variable (h : SameInside root d d')
include h

theorem node (hp : root <+: p) : d.tree.node? p = d'.tree.node? p := by
  obtain ⟨below, rfl⟩ := hp
  rw [Folder.node?_append, Folder.node?_append, h.inside]

theorem binding (hp : root <+: p) : d.tree.binding? p = d'.tree.binding? p := by
  rw [Folder.binding?, Folder.binding?, h.node hp]

/-- Along the path to the root and on from there the disks agree. -/
theorem agree {path : List Text} (hpath : Below root path) (hp : p <+: path) : Agree d d' p := by
  refine ⟨h.longestName, fun q hq => ?_⟩
  have hqp : q <+: path := hq.trans hp
  rw [walk_of_forward fun s hs => hpath.forward s (hqp.subset hs)]
  by_cases hroot : root <+: q
  · rw [h.node hroot]
    exact .refl _
  · have habove : q <+: root :=
      (List.prefix_or_prefix_of_prefix hqp hpath.below).resolve_right hroot
    have hne : q ≠ root := fun heq => hroot (heq ▸ List.prefix_rfl)
    obtain ⟨hdir, hdir'⟩ := h.above q habove hne
    exact sameNode_of_binding (hdir.trans hdir'.symm)

theorem node_eq (hp : Below root p) : d.node p = d'.node p := by
  rw [Disk.node, Disk.node, (h.agree hp List.prefix_rfl).walk]
  cases hw : d'.walk [] p with
  | error e => rfl
  | ok path =>
      obtain rfl : path = p := (walk_eq_ok hw).trans (walk_of_forward hp.forward)
      rw [Attempt.ok_bind, Attempt.ok_bind, h.node hp.below]

theorem probe_eq (hp : Below root p) : d.probe (.ofSegments p) = d'.probe (.ofSegments p) := by
  have hleads (here : List Text) : (Address.ofSegments p).segmentsFrom here = p := rfl
  rw [probe, probe, hleads, hleads, h.node_eq hp]

theorem isDirectory_eq (hp : Below root p) :
    d.isDirectory (.ofSegments p) = d'.isDirectory (.ofSegments p) := by
  rw [isDirectory, isDirectory, h.probe_eq hp]

end SameInside

/-! ## Changes -/

section Changes

variable (h : (inside root start start').states d d')
include h

/-- The two disks stay related when the same change is made below the root. -/
theorem states_change (hp : root <+: p) (hdir : d.tree.binding? p.dropLast = some .directory)
    (hne : p ≠ []) (hc : ∀ old n, change old = some n → n.Tidy fun _ => True) :
    (inside root start start').states { d with tree := d.tree.alter p change }
      { d' with tree := d'.tree.alter p change } := by
  obtain ⟨hsame, hkept, hkept'⟩ := h
  have hapart {q : List Text} (hq : ¬root <+: q) : ¬p <+: q := fun hpre => hq (hp.trans hpre)
  have hdir' : d'.tree.binding? p.dropLast = some .directory := by
    by_cases hroot : root <+: p.dropLast
    · rw [← hsame.binding hroot, hdir]
    · have hpre := (List.prefix_or_prefix_of_prefix (List.dropLast_prefix p) hp).resolve_right hroot
      exact (hsame.above _ hpre fun heq => hroot (heq ▸ List.prefix_rfl)).2
  have htidy {f : Folder Bytes} (hf : f.Distinct) : (f.alter p change).Distinct :=
    Folder.tidy_alter hf (fun _ _ => trivial) hc
  have halter := Folder.binding?_alter hsame.distinct hne hdir change
  have halter' := Folder.binding?_alter hsame.distinct' hne hdir' change
  refine ⟨⟨hsame.longestName, htidy hsame.distinct, htidy hsame.distinct', ?_, ?_⟩,
    ⟨by rw [hkept.same], fun q hq => ?_⟩, ⟨by rw [hkept'.same], fun q hq => ?_⟩⟩
  · intro q hq hqroot
    have hout : ¬root <+: q := fun hpre => hqroot (hq.eq_of_length_le hpre.length_le)
    rw [halter, halter', if_neg (hapart hout), if_neg (hapart hout)]
    exact hsame.above q hq hqroot
  -- At the root itself its node is replaced, and below it the folder there is altered.
  · obtain ⟨below, rfl⟩ := hp
    by_cases hb : below = []
    · subst hb
      rw [List.append_nil] at hne hdir hdir' ⊢
      rw [Folder.node?_alter hsame.distinct hne hdir,
        Folder.node?_alter hsame.distinct' hne hdir', hsame.inside]
    · have hroot : root <+: (root ++ below).dropLast := by
        rw [List.dropLast_append_of_ne_nil hb]
        exact List.prefix_append _ _
      obtain ⟨folder, hfolder⟩ :=
        Folder.binding?_eq_directory.mp (Folder.directory_above hdir hroot)
      rw [Folder.node?_alter_below hsame.distinct hb hfolder,
        Folder.node?_alter_below hsame.distinct' hb (hsame.inside ▸ hfolder)]
  · rw [halter, if_neg (hapart hq), hkept.outside q hq]
  · rw [halter', if_neg (hapart hq), hkept'.outside q hq]

theorem states_erase (hp : root <+: p) (hbound : d.tree.binding? p ≠ none) :
    (inside root start start').states (d.erase p) (d'.erase p) := by
  by_cases hne : p = []
  · subst hne
    exact h
  · exact states_change h hp (Folder.binding?_dropLast hbound) hne fun _ _ hn => nomatch hn

theorem states_hollow (hdir : d.tree.binding? root = some .directory) :
    (inside root start start').states { d with tree := d.tree.hollow root }
      { d' with tree := d'.tree.hollow root } := by
  by_cases hne : root = []
  · subst hne
    obtain ⟨hsame, hkept, hkept'⟩ := h
    refine ⟨⟨hsame.longestName, trivial, trivial, ?_, rfl⟩,
      ⟨by rw [hkept.same], fun q hq => absurd List.nil_prefix hq⟩,
      ⟨by rw [hkept'.same], fun q hq => absurd List.nil_prefix hq⟩⟩
    exact fun q hq hqroot => absurd (List.prefix_nil.mp hq) hqroot
  · simp only [Folder.hollow, if_neg hne]
    refine states_change h List.prefix_rfl ?_ hne fun _ n hn => ?_
    · exact Folder.directory_above hdir (List.dropLast_prefix root)
    · cases hn
      trivial

end Changes

theorem follows_inside {path : List Text} (hpath : Below root path) (hp : p <+: path) :
    Follows (inside root start start') (.ofSegments p) p where
  leads _ _ _ := ⟨rfl, rfl⟩
  agree _ _ h := h.1.agree hpath hp
  put d d' n h hn hdir hfree := by
    rw [walk_of_forward fun s hs => hpath.forward s (hp.subset hs)] at hdir hfree ⊢
    -- What stands above the root are directories, so nothing can be put there.
    have hroot : root <+: p := by
      by_cases hroot : root <+: p
      · exact hroot
      · have hpre := (List.prefix_or_prefix_of_prefix hp hpath.below).resolve_right hroot
        exact absurd (h.1.above p hpre fun heq => hroot (heq ▸ List.prefix_rfl)).1 hfree
    refine states_change h hroot hdir ?_ fun _ _ hm => ?_
    · rintro rfl
      exact hfree rfl
    · cases hm
      exact hn

theorem alike_ensureDirectory_inside (hp : Below root p) :
    (inside root start start').Alike (ensureDirectory (.ofSegments p)) fun _ => True :=
  alike_ensureDirectory fun parts hparts => ⟨parts, follows_inside hp hparts⟩

end PipeShell.Disk
