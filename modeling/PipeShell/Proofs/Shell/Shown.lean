import PipeShell.Proofs.Path.Resolve
import PipeShell.Proofs.Shell.Stage
import PipeShell.Proofs.Store.Displayed

/-!
# Paths in answers

The paths of the store that the answer of a command shows, with the slash of the root in front. Names
of entries, contents of files and the user's own words are no paths of the store.
-/

namespace PipeShell

/-- The verb shows no path when it succeeds. -/
def Verb.isPathless : Verb → Bool
  | help | concatenate | read | clearScreen | head | tail | search | wordCount | sort | deduplicate
  | echo | storageInfo | resetAll => true
  | _ => false

open Command PipeShell.Path in
/-- The answer of a verb shows these paths and no others. Where it shows entries by their names, no
name holds a slash. -/
inductive Shows : Verb → Result → List Text → Prop
  | pathless {v out} : v.isPathless → Shows v (.ok out) []
  | usage {v form} : Shows v (usage form) []
  | unknown {v} : Shows v (.fail ("Unknown command: " ++ v.word)) []
  | disabled {v} : Shows v (.fail ("Command '" ++ v.word ++ "' is disabled in this shell")) []
  | overlong {v limit} :
      Shows v (.fail ("Output limit (" ++ Text.ofInt limit ++ " bytes) exceeded")) []
  | refused {v} {f : Failure} : f.isExpected → Shows v (.fail f.message) f.displayed
  | broken {v} {f : Failure} :
      ¬f.isExpected → Shows v (.fail (v.word ++ " failed: " ++ f.message)) f.displayed
  | workingDirectory {p} : Shows .printWorkingDirectory (.ok (display p)) [p]
  | entered : Shows .changeDirectory (.ok []) []
  | noDirectory {p} : Shows .changeDirectory (.fail ("Not a directory: " ++ display p)) [p]
  | names {es : List StoreEntry} : (∀ e ∈ es, '/' ∉ e.name) →
      Shows .listDirectory (.ok (renderList false es)) []
  | entries {es} : Shows .listDirectory (.ok (renderList true es)) (es.map (·.path))
  | tree {p} {es : List StoreEntry} {fuel} : (∀ e ∈ es, '/' ∉ e.name) →
      Shows .tree (.ok (Text.join ['\n'] (display p :: treeLines es fuel p []))) [p]
  | madeDirectory {p} : Shows .makeDirectory (.ok ("Created directory: " ++ display p)) [p]
  | fileExists {p} : Shows .createEmpty (.ok ("File exists: " ++ display p)) [p]
  | created {p} : Shows .createEmpty (.ok ("Created file: " ++ display p)) [p]
  | isDirectory {p} :
      Shows .remove (.fail ("Is a directory: " ++ display p ++ " (use rmdir or rm -r)")) [p]
  | removed {p} : Shows .remove (.ok ("Removed: " ++ display p)) [p]
  | removedDirectory {p} : Shows .removeDirectory (.ok ("Removed directory: " ++ display p)) [p]
  | moved {p q} : Shows .move (.ok ("Moved: " ++ display p ++ " -> " ++ display q)) [p, q]
  | copied {p q} : Shows .copy (.ok ("Copied: " ++ display p ++ " -> " ++ display q)) [p, q]
  | written {p} : Shows .write (.ok ("Written to: /" ++ p)) [p]
  | identical : Shows .compare (.ok "Files are identical") []
  | compared {p q differences} :
      Shows .compare (.ok (Text.joinLines (("--- /" ++ p) :: ("+++ /" ++ q) :: differences))) [p, q]
  | noHelp {topic} : Shows .help (.fail ("No help for unknown command: " ++ topic)) []
  | noPattern {source fault} :
      Shows .search (.fail ("Invalid pattern '" ++ source ++ "': " ++ fault)) []
  | noStorageInfo : Shows .storageInfo (.fail "Storage info not available") []
  | noImport : Shows .importFiles (.fail "Import is not available in this session") []
  | nothingPicked : Shows .importFiles (.fail "No files selected") []
  | imported {ps} :
      Shows .importFiles (.ok ("Imported " ++ Text.ofNat ps.length ++ " file(s):\n"
        ++ Text.join ['\n'] (ps.map fun p => "  " ++ display p))) ps
  | noExport : Shows .exportFile (.fail "Export is not available in this session") []
  | exported {p location} :
      Shows .exportFile (.ok ("Exported: " ++ display p ++ " -> " ++ location)) [p]

/-- The answer of the verb shows only paths in normal form. -/
def Result.ShowsNormal (v : Verb) (r : Result) : Prop :=
  ∃ paths, Shows v r paths ∧ ∀ p ∈ paths, Path.Normal p

/-- The wording of the failure shows only paths in normal form. -/
def Failure.ShowsNormal (f : Failure) : Prop :=
  ∀ p ∈ f.displayed, Path.Normal p

namespace Shows

variable {v : Verb} {r : Result}

/-- The paths stand in the wording of the answer. -/
theorem display_infix {paths : List Text} (h : Shows v r paths) {path : Text} (hp : path ∈ paths) :
    Path.display path <:+: r.error.getD r.output := by
  cases h with
  | pathless | usage | unknown | disabled | overlong | entered | names | identical | noHelp
  | noPattern | noStorageInfo | noImport | nothingPicked | noExport => cases hp
  | refused => exact Failure.display_infix_message hp
  | broken =>
      exact (Failure.display_infix_message hp).trans (List.suffix_append _ _).isInfix
  | workingDirectory =>
      obtain rfl := List.mem_singleton.mp hp
      exact List.infix_rfl
  | noDirectory | madeDirectory | fileExists | created | removed | removedDirectory =>
      obtain rfl := List.mem_singleton.mp hp
      exact (List.suffix_append _ _).isInfix
  | written =>
      obtain rfl := List.mem_singleton.mp hp
      exact Failure.display_infix (by decide) path
  | isDirectory | exported =>
      obtain rfl := List.mem_singleton.mp hp
      exact ⟨_, _, by simp only [List.append_assoc]; rfl⟩
  | moved | copied =>
      rcases List.mem_cons.mp hp with rfl | hp
      · exact ⟨_, _, by simp only [List.append_assoc]; rfl⟩
      · obtain rfl := List.mem_singleton.mp hp
        exact (List.suffix_append _ _).isInfix
  | entries =>
      obtain ⟨e, he, rfl⟩ := List.mem_map.mp hp
      exact (List.suffix_append _ _).isInfix.trans (Text.infix_join _ (List.mem_map_of_mem he))
  | tree =>
      obtain rfl := List.mem_singleton.mp hp
      exact Text.infix_join _ (List.mem_cons_self ..)
  | compared =>
      have hold : Path.display path <:+: "--- /" ++ path := Failure.display_infix (by decide) path
      have hnew : Path.display path <:+: "+++ /" ++ path := Failure.display_infix (by decide) path
      rcases List.mem_cons.mp hp with rfl | hp
      · exact hold.trans (Text.infix_join _ (by simp))
      · obtain rfl := List.mem_singleton.mp hp
        exact hnew.trans (Text.infix_join _ (by simp))
  | imported =>
      have hline : Path.display path <:+: "  " ++ Path.display path :=
        (List.suffix_append _ _).isInfix
      have hlines := Text.infix_join ['\n'] (List.mem_map_of_mem (f := ("  " ++ Path.display ·)) hp)
      exact (hline.trans hlines).trans (List.suffix_append _ _).isInfix

theorem normal_nil (h : Shows v r []) : r.ShowsNormal v :=
  ⟨[], h, by simp⟩

theorem normal_one {p : Text} (h : Shows v r [p]) (hp : Path.Normal p) : r.ShowsNormal v :=
  ⟨[p], h, by simpa using hp⟩

theorem normal_two {p q : Text} (h : Shows v r [p, q]) (hp : Path.Normal p) (hq : Path.Normal q) :
    r.ShowsNormal v :=
  ⟨[p, q], h, by simp [hp, hq]⟩

end Shows

namespace Failure

theorem showsNormal_silent {f : Failure} (h : f.Silent) : f.ShowsNormal := by
  intro p hp
  rw [h] at hp
  cases hp

theorem showsNormal_self {f : Failure} {path : Text} (h : f.displayed = [path])
    (hp : Path.Normal path) : f.ShowsNormal := by
  intro p hf
  rw [h] at hf
  obtain rfl := List.mem_singleton.mp hf
  exact hp

theorem Along.showsNormal {f : Failure} {path : Text} (h : f.Along path) (hp : Path.Normal path) :
    f.ShowsNormal := by
  intro p hf
  rcases h p hf with rfl | ⟨above, hpre, rfl⟩
  · exact hp
  · exact Path.normal_ofSegments fun s hs => hp.forward s (hpre.subset hs)

end Failure

end PipeShell
