import Mathlib.Data.List.Infix
import PipeShell.Disk.Picker
import PipeShell.Proofs.Disk.Agree

/-!
# Disks that differ below one directory

Two disks that are the same but for what is below one directory cannot be told apart by addresses
that do not lead there. Operations at such addresses end alike, and leave alone what is below.
-/

namespace PipeShell

/-- The path is not below the root. -/
def Path.Outside (root path : List Text) : Prop :=
  root <+: path → path = root

instance (root path : List Text) : Decidable (Path.Outside root path) :=
  inferInstanceAs (Decidable (_ → _))

/-- A walk along the segments from the root of the disk never gets below this root. -/
def Path.Avoids (root segments : List Text) : Prop :=
  ∀ p, p <+: segments → Outside root (walk p)

instance (root segments : List Text) : Decidable (Path.Avoids root segments) :=
  decidable_of_iff (∀ p ∈ segments.inits, Path.Outside root (Path.walk p))
    (forall_congr' fun _ => imp_congr_left (List.mem_inits _ _))

theorem Path.Avoids.above {root p q : List Text} (h : Avoids root q) (hp : p <+: q) :
    Avoids root p :=
  fun r hr => h r (hr.trans hp)

theorem Path.Avoids.self {root segments : List Text} (h : Avoids root segments) :
    Outside root (walk segments) :=
  h segments List.prefix_rfl

/-- Seen from a working directory, the address does not lead below the root. -/
def Address.Avoids (root here : List Text) (a : Address) : Prop :=
  Path.Avoids root (a.segmentsFrom here)

instance (root here : List Text) (a : Address) : Decidable (a.Avoids root here) :=
  inferInstanceAs (Decidable (Path.Avoids _ _))

theorem Address.Avoids.above {root here parts above : List Text} {slash : Text}
    (h : (⟨slash, parts⟩ : Address).Avoids root here) (hp : above <+: parts) :
    (⟨slash, above⟩ : Address).Avoids root here := by
  refine Path.Avoids.above h ?_
  simp only [Address.segmentsFrom]
  split
  · exact (List.prefix_append_right_inj here).mpr hp
  · exact hp

namespace Disk

open PipeShell.Action Tie PipeShell.Path

/-- The two disks are the same but for what is below the directory at the root. -/
structure SameOutside (root : List Text) (d d' : Disk) : Prop where
  workingDirectory : d.workingDirectory = d'.workingDirectory
  longestName : d.longestName = d'.longestName
  distinct : d.tree.Distinct
  distinct' : d'.tree.Distinct
  directory : d.tree.binding? root = some .directory
  outside : ∀ p, Outside root p → d.tree.binding? p = d'.tree.binding? p

/-- What the disk holds at the root and below it stays. -/
structure Kept (root : List Text) (d d' : Disk) : Prop where
  same : d' = { d with tree := d'.tree }
  inside : ∀ p, root <+: p → d'.tree.binding? p = d.tree.binding? p

/-- Two disks that are the same outside of the root, and the second of which holds there what another
disk does. -/
def apart (root : List Text) (start : Disk) : Tie Disk :=
  ⟨fun d d' => SameOutside root d d' ∧ Kept root start d', False, fun _ => False⟩

variable {root p : List Text} {start d d' : Disk} {a : Address}

theorem SameOutside.agree (h : SameOutside root d d') {segments : List Text}
    (ha : Avoids root segments) : Agree d d' segments :=
  ⟨h.longestName, fun p hp => sameNode_of_binding (h.outside _ (ha p hp))⟩

/-! ## Changes -/

theorem states_alter (h : (apart root start).states d d') (ho : Outside root p)
    (hdir : d.tree.binding? p.dropLast = some .directory)
    (hfree : d.tree.binding? p ≠ some .directory) {n : Node Bytes}
    (hn : n.Tidy fun _ => True) :
    (apart root start).states { d with tree := d.tree.alter p fun _ => some n }
      { d' with tree := d'.tree.alter p fun _ => some n } := by
  obtain ⟨hsame, hkept⟩ := h
  have hne : p ≠ [] := by
    rintro rfl
    exact hfree rfl
  have hbelow : ¬root <+: p := by
    intro hpre
    exact hfree (ho hpre ▸ hsame.directory)
  have habove : ¬p <+: root := fun hpre => hfree (Folder.directory_above hsame.directory hpre)
  -- Neither above nor below the root, the path is apart from all that is inside.
  have hapart {q : List Text} (hq : root <+: q) : ¬p <+: q := fun hpre =>
    (List.prefix_or_prefix_of_prefix hpre hq).elim habove hbelow
  have hdir' : d'.tree.binding? p.dropLast = some .directory := by
    rw [← hsame.outside _ fun hpre => absurd (hpre.trans (List.dropLast_prefix p)) hbelow, hdir]
  have htidy (f : Folder Bytes) (hf : f.Distinct) : (f.alter p fun _ => some n).Distinct :=
    Folder.tidy_alter hf (fun _ _ => trivial) fun _ m hm => by
      cases hm
      exact hn
  have halter := Folder.binding?_alter hsame.distinct hne hdir fun _ => some n
  have halter' := Folder.binding?_alter hsame.distinct' hne hdir' fun _ => some n
  constructor
  · refine ⟨hsame.workingDirectory, hsame.longestName, htidy _ hsame.distinct,
      htidy _ hsame.distinct', ?_, fun q hq => ?_⟩
    · rw [halter, if_neg habove, hsame.directory]
    · rw [halter, halter', hsame.outside q hq]
  · refine ⟨by rw [hkept.same], fun q hq => ?_⟩
    rw [halter', if_neg (hapart hq), hkept.inside q hq]

theorem states_here (h : (apart root start).states d d') :
    d.workingDirectory = start.workingDirectory ∧ d'.workingDirectory = start.workingDirectory := by
  have hsame : d'.workingDirectory = start.workingDirectory := by rw [h.2.same]
  exact ⟨h.1.workingDirectory.trans hsame, hsame⟩

theorem follows_apart (ha : a.Avoids root start.workingDirectory) :
    Follows (apart root start) a (a.segmentsFrom start.workingDirectory) where
  leads _ _ h := by
    obtain ⟨hhere, hhere'⟩ := states_here h
    exact ⟨by rw [hhere], by rw [hhere']⟩
  agree _ _ h := h.1.agree ha
  put _ _ _ h hn hdir hfree := states_alter h ha.self hdir hfree hn

theorem alike_ensureDirectory_apart (ha : a.Avoids root start.workingDirectory) :
    (apart root start).Alike (ensureDirectory a) fun _ => True :=
  alike_ensureDirectory fun _ hparts => ⟨_, follows_apart (Address.Avoids.above ha hparts)⟩

end Disk

namespace Picker

open Tie

variable {p : Picker} {root : List Text} {start d d' : Disk} {name content : Text}

theorem alike_save (hb : p.base.Avoids root start.workingDirectory)
    (ht : (p.base.append (.ofText name)).Avoids root start.workingDirectory) :
    (Disk.apart root start).Alike (p.save name content)
      fun place => place = (p.base.append (.ofText name)).toText := by
  refine alike_ite (fun _ => alike_throw _) fun _ => ?_
  refine (Disk.alike_ensureDirectory_apart hb).bind fun _ _ => ?_
  exact ((Disk.follows_apart ht).alike_writeText .utf8 content).bind fun _ _ => alike_pure rfl

theorem pick_eq (h : Disk.SameOutside root d d')
    (ha : ∀ source, p.source name = .ok source → source.Avoids root d.workingDirectory) :
    p.pick name d = p.pick name d' := by
  rw [pick, pick]
  cases hs : p.source name with
  | error f => rfl
  | ok source =>
      rw [Attempt.ok_bind, Attempt.ok_bind]
      rcases (h.agree (ha source hs)).probe rfl (by rw [h.workingDirectory])
        with ⟨f, hf, hf'⟩ | ⟨n, n', hn, hn', hnode⟩
      · rw [hf, hf']
      · rw [hn, hn']
        cases hnode <;> rfl

theorem pickAll_eq {names : List Text} (h : Disk.SameOutside root d d')
    (ha : ∀ name ∈ names, ∀ source, p.source name = .ok source →
      source.Avoids root d.workingDirectory) :
    p.pickAll names d = p.pickAll names d' := by
  induction names with
  | nil => rfl
  | cons name names ih =>
      have hpick := pick_eq h (ha name (by simp))
      have hpicked := ih fun name hname => ha name (by simp [hname])
      rw [pickAll] at hpicked ⊢
      rw [pickAll] at hpicked ⊢
      rw [List.mapM_cons, List.mapM_cons, hpick, hpicked]

end Picker

end PipeShell
