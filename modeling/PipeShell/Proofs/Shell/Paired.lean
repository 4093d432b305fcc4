import PipeShell.Proofs.Shell.Outputs
import PipeShell.Proofs.Shell.Pairing

/-!
# Commands side by side

In two shells that are paired every command gives the same answer, or fails in both.
-/

namespace PipeShell

/-- The verbs whose commands change the store. -/
def Verb.changing : List Verb :=
  [makeDirectory, createEmpty, remove, removeDirectory, move, copy, write, importFiles, resetAll]

namespace Pairing

open Command Tie

variable {p : Pairing} {α β : Type} {args : Args} {v : Verb} {form : Text} {piped : Option Text}
  {key : Key} {path : Text}

/-- What is piped into a stage is made of what may be shown. -/
def Feeds (p : Pairing) (piped : Option Text) : Prop :=
  ∀ t ∈ piped, t.Within p.shown

theorem answers_ok {output : Text} (h : output.Within p.shown) : p.Answers (pure (.ok output)) :=
  alike_pure h

theorem answers_fail (error : Text) : p.Answers (pure (.fail error)) :=
  alike_pure Text.within_nil

theorem answers_usage : p.Answers (pure (usage form)) :=
  answers_fail _

theorem alike_world {x : Action World α} {P : α → Prop} (h : p.world.Alike x P) :
    p.state.Alike (liftM x) P :=
  pairs_world h

variable (hp : p.Lawful)
include hp

theorem bind_shell {f : Shell → Action ShellState β} {V : β → β → Prop}
    (hf : ∀ (a : Shell) debug, p.shells a { a with debug } →
      p.state.Pairs (f a) (f { a with debug }) V) :
    p.state.Pairs (shell >>= f) (shell >>= f) V := by
  refine pairs_shell.bind ?_
  intro a b hab
  have hview : b = { a with debug := b.debug } := by rw [hp.view hab]
  rw [hview] at hab ⊢
  exact hf a b.debug hab

theorem alike_resolve_text (ha : ∀ arg ∈ args, arg.2.Within p.named)
    (hpath : args.text? key = some path) : p.state.Alike (resolve (some path)) p.path := by
  refine (alike_resolve hp ?_).mono fun _ h => h.1
  intro t ht
  obtain rfl := Option.mem_some.mp ht
  exact within_text? ha hpath

theorem alike_resolve_text? (ha : ∀ arg ∈ args, arg.2.Within p.named) :
    p.state.Alike (resolve (args.text? key)) p.path :=
  (alike_resolve hp fun _ ht => within_text? ha ht).mono fun _ h => h.1

theorem within_shown_path (h : p.path path) : (Path.display path).Within p.shown :=
  within_display hp.shown_plain (hp.shown_path h)

theorem within_about {before : Text} (hb : '\r' ∉ before) (h : p.path path) :
    (before ++ Path.display path).Within p.shown :=
  Text.within_append.mpr ⟨Text.within_of_not_mem hp.shown_plain hb, within_shown_path hp h⟩

/-! ## Files -/

theorem answers_withPath {run : Text → Command} (ha : ∀ arg ∈ args, arg.2.Within p.named)
    (hrun : ∀ target, p.path target → p.Answers (run target)) :
    p.Answers (withPath args form run) := by
  unfold withPath
  split
  · exact answers_usage
  · rename_i path hpath
    exact (alike_resolve_text hp ha hpath).bind hrun

theorem answers_withPaths {run : Text → Text → Command} (ha : ∀ arg ∈ args, arg.2.Within p.named)
    (hrun : ∀ source dest, p.path source → p.path dest → p.Answers (run source dest)) :
    p.Answers (withPaths args form run) := by
  unfold withPaths
  split
  · rename_i source dest hsource hdest
    refine (alike_resolve_text hp ha hsource).bind fun source hs => ?_
    refine (alike_resolve_text hp ha hdest).bind fun dest hd => ?_
    refine (alike_world (hp.isDirectory hd)).bind fun into _ => ?_
    refine hrun _ _ hs ?_
    split
    · exact hp.path_into hd hs
    · exact hd
  · exact answers_usage

theorem answers_exportFile (h : p.Admits ⟨.exportFile, args⟩) : p.Answers (exportFile args) := by
  unfold exportFile withPath
  split
  · exact answers_usage
  · rename_i path hpath
    refine (alike_resolve hp ?_).bind fun target ht => ?_
    · intro t ht
      obtain rfl := Option.mem_some.mp ht
      exact within_text? h.values hpath
    obtain ⟨ht, a, b, hab, htarget⟩ := ht
    refine bind_shell hp fun c debug hcd => ?_
    rw [hp.picker hcd]
    split
    · exact answers_fail _
    · rename_i picker hsome
      have hplace : p.near .exportFile (picker.base.append (.ofText (Path.name target))) :=
        h.near hsome hab _ (by simp [Shell.stageAddresses, hpath, htarget])
      refine (alike_world (hp.read ht)).bind fun content _ => ?_
      refine (alike_world (hp.save hsome hplace ht)).bind fun location hlocation => ?_
      refine answers_ok (Text.within_append.mpr ⟨Text.within_append.mpr ⟨?_, ?_⟩, hlocation⟩)
      · exact within_about hp (by decide) ht
      · exact Text.within_of_not_mem hp.shown_plain (by decide)

/-! ## Directories -/

theorem answers_printWorkingDirectory : p.Answers printWorkingDirectory := by
  refine bind_shell hp fun a debug hab => ?_
  exact answers_ok (within_display hp.shown_plain (hp.cwd hab))

theorem answers_goTo {cwd : Text} (h : p.path cwd) : p.Answers (goTo cwd) :=
  (alike_enter hp h).bind fun _ _ => answers_ok Text.within_nil

theorem answers_changeDirectory (ha : ∀ arg ∈ args, arg.2.Within p.named) :
    p.Answers (changeDirectory args) := by
  rw [changeDirectory]
  split
  · exact answers_goTo hp hp.path_root
  · exact answers_goTo hp hp.path_root
  · rename_i path hpath
    refine (alike_resolve_text hp ha hpath).bind fun target ht => ?_
    have hrest (missing : Bool) : p.Answers
        (if missing then return .fail ("Not a directory: " ++ Path.display target)
          else goTo target) :=
      alike_ite (fun _ => answers_fail _) fun _ => answers_goTo hp ht
    refine alike_ite (fun _ => hrest false) fun _ => ?_
    exact (alike_world (hp.isDirectory ht)).bind fun d _ => hrest !d

theorem alike_requireDirectory {target : Text} (ht : p.path target) :
    p.state.Alike (requireDirectory target) fun _ => True := by
  refine alike_ite (fun _ => ?_) fun _ => alike_pure trivial
  refine (alike_world (hp.isDirectory ht)).bind fun d _ => ?_
  refine alike_ite (fun _ => ?_) fun _ => alike_pure trivial
  refine (alike_world (hp.holds ht)).bind fun held _ => ?_
  exact alike_ite (fun _ => alike_throw _) fun _ => alike_throw _

theorem answers_listDirectory (ha : ∀ arg ∈ args, arg.2.Within p.named) :
    p.Answers (listDirectory args) := by
  refine (alike_resolve_text? hp ha).bind fun target ht => ?_
  have hfile : (renderList (args.holds .long) [⟨Path.name target, target, false⟩]).Within p.shown := by
    refine within_renderList hp.shown_plain ?_
    intro e he
    obtain rfl := List.mem_singleton.mp he
    exact ⟨Path.within_name (hp.shown_path ht), hp.shown_path ht⟩
  have hrest (isFile : Bool) : p.Answers (do
      if isFile then
        return .ok (renderList (args.holds .long) [⟨Path.name target, target, false⟩])
      requireDirectory target
      return .ok (renderList (args.holds .long)
        (ordered (childrenOf target (← Store.list target))))) := by
    refine alike_ite (fun _ => answers_ok hfile) fun _ => ?_
    refine (alike_requireDirectory hp ht).bind fun _ _ => ?_
    refine (pairs_world (hp.list ht)).bind fun es es' hes => ?_
    rw [← hes.children target]
    refine answers_ok (within_renderList hp.shown_plain ?_)
    exact fun e he => hes.shown e (mem_ordered_childrenOf he)
  refine (alike_world (hp.holds ht)).bind fun held _ => ?_
  refine alike_ite (fun _ => hrest false) fun _ => ?_
  refine alike_ite (fun _ => ?_) fun _ => hrest false
  exact (alike_world (hp.isDirectory ht)).bind fun d _ => hrest !d

omit hp in
theorem SameListing.treeLines {es es' : List StoreEntry} (h : p.SameListing es es') (fuel : Nat)
    (directory indent : Text) :
    treeLines es fuel directory indent = treeLines es' fuel directory indent := by
  induction fuel generalizing directory indent with
  | zero => rfl
  | succ fuel ih => simp only [Command.treeLines, h.children, ih]

theorem answers_tree (ha : ∀ arg ∈ args, arg.2.Within p.named) : p.Answers (tree args) := by
  refine (alike_resolve_text? hp ha).bind fun target ht => ?_
  refine (alike_requireDirectory hp ht).bind fun _ _ => ?_
  refine (pairs_world (hp.list ht)).bind fun es es' hes => ?_
  rw [← hes.length, ← hes.treeLines]
  refine answers_ok (Text.within_join (Text.within_of_not_mem hp.shown_plain (by decide)) ?_)
  intro line hline
  rcases List.mem_cons.mp hline with rfl | hline
  · exact within_shown_path hp ht
  · exact within_treeLines hp.shown_plain (fun e he => (hes.shown e he).1) _ _ Text.within_nil _ hline

/-! ## Texts -/

theorem alike_readAll {paths : List Text} (h : ∀ path ∈ paths, path.Within p.named) :
    p.state.Alike (readAll paths) fun ts => ∀ t ∈ ts, t.Within p.shown := by
  induction paths with
  | nil => exact alike_pure (by simp)
  | cons path paths ih =>
      refine (alike_resolve hp ?_).bind fun target ht => ?_
      · intro t ht
        obtain rfl := Option.mem_some.mp ht
        exact h path (by simp)
      refine (alike_world (hp.read ht.1)).bind fun content hcontent => ?_
      refine (ih fun path hmem => h path (by simp [hmem])).bind fun ts hts => ?_
      exact alike_pure (by simpa using ⟨hcontent, hts⟩)

theorem alike_input (ha : ∀ arg ∈ args, arg.2.Within p.named) (hpiped : p.Feeds piped) :
    p.state.Alike (input args piped) p.Feeds := by
  unfold input
  split
  · exact alike_pure hpiped
  · exact alike_pure (by simp [Feeds])
  · refine (alike_readAll hp (within_sourcePaths ha)).bind fun ts hts => ?_
    refine alike_pure ?_
    intro t ht
    obtain rfl := Option.mem_some.mp ht
    exact within_concat hp.shown_plain hts

theorem answers_withInput {run : Text → Command} (ha : ∀ arg ∈ args, arg.2.Within p.named)
    (hpiped : p.Feeds piped) (hrun : ∀ content, content.Within p.shown → p.Answers (run content)) :
    p.Answers (withInput args piped form run) := by
  refine (alike_input hp ha hpiped).bind fun content hcontent => ?_
  cases content with
  | none => exact answers_usage
  | some content => exact hrun content (hcontent content rfl)

theorem answers_concatenate (ha : ∀ arg ∈ args, arg.2.Within p.named) (hpiped : p.Feeds piped) :
    p.Answers (concatenate args piped) :=
  answers_withInput hp ha hpiped fun _ => answers_ok

theorem answers_read (ha : ∀ arg ∈ args, arg.2.Within p.named) : p.Answers (Command.read args) := by
  rw [Command.read]
  split
  · exact answers_usage
  · rename_i path hpath
    refine (alike_resolve_text hp ha hpath).bind fun target ht => ?_
    exact (alike_world (hp.read ht)).bind fun _ => answers_ok

theorem answers_echo (ha : ∀ arg ∈ args, arg.2.Within p.named) : p.Answers (echo args) := by
  refine answers_ok ?_
  cases hv : args.get? .text with
  | none => exact Text.within_nil
  | some v =>
      refine within_output hp.shown_plain ?_
      rintro t rfl
      have ht : t.Within p.named := within_get? ha hv
      exact ht.mono fun _ => hp.shown_named

theorem answers_lineWindow (ha : ∀ arg ∈ args, arg.2.Within p.named) (hpiped : p.Feeds piped)
    (fromEnd : Bool) : p.Answers (lineWindow fromEnd args piped) := by
  unfold lineWindow
  split
  · exact (alike_liftM fun _ _ => trivial).bind fun _ _ =>
      answers_ok (within_window hp.shown_plain (hpiped _ rfl))
  · exact answers_ok (within_window hp.shown_plain (hpiped _ rfl))
  · rename_i path hpath
    refine (alike_resolve_text hp ha hpath).bind fun target ht => ?_
    exact (alike_world (hp.read ht)).bind fun _ hcontent =>
      answers_ok (within_window hp.shown_plain hcontent)
  · exact answers_usage

theorem answers_sort {collate : Collation} (ha : ∀ arg ∈ args, arg.2.Within p.named)
    (hpiped : p.Feeds piped) : p.Answers (sort collate args piped) :=
  answers_withInput hp ha hpiped fun _ hcontent =>
    alike_ite (fun _ => alike_throw _) fun _ => answers_ok (within_sorted hp.shown_plain hcontent)

theorem answers_deduplicate (ha : ∀ arg ∈ args, arg.2.Within p.named) (hpiped : p.Feeds piped) :
    p.Answers (deduplicate args piped) :=
  answers_withInput hp ha hpiped fun _ hcontent =>
    answers_ok (within_runs hp.shown_plain hcontent)

theorem answers_wordCount (ha : ∀ arg ∈ args, arg.2.Within p.named) (hpiped : p.Feeds piped) :
    p.Answers (wordCount args piped) := by
  refine answers_withInput hp ha hpiped fun content _ => ?_
  dsimp only
  split
  · rename_i path hpath
    refine answers_ok (Text.within_append.mpr ⟨?_, ?_⟩)
    · exact Text.within_append.mpr ⟨within_countsLine hp.shown_plain,
        Text.within_of_not_mem hp.shown_plain (by decide)⟩
    · exact (within_text? ha hpath).mono fun _ => hp.shown_named
  · exact answers_ok (within_countsLine hp.shown_plain)

theorem answers_compare (ha : ∀ arg ∈ args, arg.2.Within p.named) : p.Answers (Command.compare args) := by
  rw [Command.compare]
  split
  · rename_i left right hleft hright
    refine (alike_resolve_text hp ha hleft).bind fun old hold => ?_
    refine (alike_resolve_text hp ha hright).bind fun new hnew => ?_
    refine (alike_world (hp.read hold)).bind fun oldText holdText => ?_
    refine (alike_world (hp.read hnew)).bind fun newText hnewText => ?_
    refine alike_ite (fun _ => ?_) fun _ => ?_
    · exact answers_ok (Text.within_of_not_mem hp.shown_plain (by decide))
    · have hplain {t : Text} (ht : '\r' ∉ t) : t.Within p.shown :=
        Text.within_of_not_mem hp.shown_plain ht
      refine answers_ok (Text.within_joinLines hp.shown_plain ?_)
      intro line hline
      rcases List.mem_cons.mp hline with rfl | hline
      · exact Text.within_append.mpr ⟨hplain (by decide), hp.shown_path hold⟩
      rcases List.mem_cons.mp hline with rfl | hline
      · exact Text.within_append.mpr ⟨hplain (by decide), hp.shown_path hnew⟩
      split at hline
      · obtain rfl := List.mem_singleton.mp hline
        exact hplain (by decide)
      · refine within_lineDifferences hp.shown_plain ?_ ?_ line hline
        · exact fun line h => holdText.subset (Text.subset_of_mem_lines h)
        · exact fun line h => hnewText.subset (Text.subset_of_mem_lines h)
  · exact answers_usage

theorem answers_search (ha : ∀ arg ∈ args, arg.2.Within p.named) (hpiped : p.Feeds piped) :
    p.Answers (search args piped) := by
  rw [search]
  split
  · exact answers_usage
  · split
    · exact alike_throw _
    · exact answers_fail _
    · split
      · exact answers_ok (within_selectLines hp.shown_plain (hpiped _ rfl))
      · rename_i path hpath
        refine (alike_resolve_text hp ha hpath).bind fun target ht => ?_
        exact (alike_world (hp.read ht)).bind fun _ hcontent =>
          answers_ok (within_selectLines hp.shown_plain hcontent)
      · exact answers_usage

/-! ## The shell -/

theorem answers_help : p.Answers (help args) := by
  refine bind_shell hp fun a debug _ => ?_
  dsimp only
  split
  · split
    · exact answers_fail _
    · exact answers_ok (within_topicLines hp.shown_plain _)
  · exact answers_ok (within_overviewLines hp.shown_plain _)

theorem answers_clearScreen : p.Answers clearScreen := by
  refine bind_shell hp fun a debug _ => ?_
  refine alike_ite (fun _ => ?_) fun _ => answers_ok Text.within_nil
  exact (alike_world hp.countClear).bind fun _ _ => answers_ok Text.within_nil

theorem answers_storageInfo (hinfo : p.world.Alike Store.storageInfo fun _ => True) :
    p.Answers storageInfo := by
  refine (alike_world hinfo).bind fun info _ => ?_
  split
  · exact answers_fail _
  · refine alike_ite (fun _ => answers_fail _) fun _ => ?_
    refine (alike_liftM fun _ => within_megabytes hp.shown_plain).bind fun used hused => ?_
    refine (alike_liftM fun _ => within_megabytes hp.shown_plain).bind fun quota hquota => ?_
    have hplain {t : Text} (ht : '\r' ∉ t) : t.Within p.shown :=
      Text.within_of_not_mem hp.shown_plain ht
    have hpercent := within_fixed hp.shown_plain 1
    refine answers_ok ?_
    simp only [Text.within_append]
    exact ⟨⟨⟨⟨⟨⟨hplain (by decide), hused⟩, hplain (by decide)⟩, hquota⟩, hplain (by decide)⟩,
      hpercent _⟩, hplain (by decide)⟩

/-- Every command that changes no store, as far as the use of storage may be asked for. -/
theorem answers_ofVerb_of_not_mem (hv : v ∉ Verb.changing) (h : p.Admits ⟨v, args⟩)
    (hpiped : p.Feeds piped)
    (hinfo : v = .storageInfo → p.world.Alike Store.storageInfo fun _ => True) :
    p.Answers (ofVerb v args piped) := by
  cases v with
  | help => exact answers_help hp
  | listDirectory => exact answers_listDirectory hp h.values
  | concatenate => exact answers_concatenate hp h.values hpiped
  | read => exact answers_read hp h.values
  | printWorkingDirectory => exact answers_printWorkingDirectory hp
  | changeDirectory => exact answers_changeDirectory hp h.values
  | clearScreen => exact answers_clearScreen hp
  | tree => exact answers_tree hp h.values
  | head => exact answers_lineWindow hp h.values hpiped false
  | tail => exact answers_lineWindow hp h.values hpiped true
  | search => exact answers_search hp h.values hpiped
  | wordCount => exact answers_wordCount hp h.values hpiped
  | compare => exact answers_compare hp h.values
  | sort => exact answers_sort hp h.values hpiped
  | deduplicate => exact answers_deduplicate hp h.values hpiped
  | echo => exact answers_echo hp h.values
  | exportFile => exact answers_exportFile hp h
  | storageInfo => exact answers_storageInfo hp (hinfo rfl)
  | makeDirectory | createEmpty | remove | removeDirectory | move | copy | write | importFiles
  | resetAll => exact absurd (by decide) hv

omit hp

/-! ## Changes -/

theorem answers_change {x : Action World α} {output : Text} (hx : p.world.Alike x fun _ => True)
    (h : output.Within p.shown) : p.Answers (do
      let _ ← x
      return .ok output) :=
  (alike_world hx).bind fun _ _ => answers_ok h

variable (hc : p.Changing)
include hc

theorem answers_makeDirectory (ha : ∀ arg ∈ args, arg.2.Within p.named) :
    p.Answers (makeDirectory args) :=
  answers_withPath hc.toLawful ha fun _ ht =>
    answers_change (hc.createDirectory ht) (within_about hc.toLawful (by decide) ht)

theorem answers_createEmpty (ha : ∀ arg ∈ args, arg.2.Within p.named) :
    p.Answers (createEmpty args) := by
  refine answers_withPath hc.toLawful ha fun target ht => ?_
  have hrest (isFile : Bool) : p.Answers (do
      if isFile then return .ok ("File exists: " ++ Path.display target)
      else
        let _ ← Store.createFile target []
        return .ok ("Created file: " ++ Path.display target)) :=
    alike_ite (fun _ => answers_ok (within_about hc.toLawful (by decide) ht)) fun _ =>
      answers_change (hc.createFile ht Text.within_nil) (within_about hc.toLawful (by decide) ht)
  refine (alike_world (hc.holds ht)).bind fun held _ => ?_
  refine alike_ite (fun _ => ?_) fun _ => hrest false
  exact (alike_world (hc.isDirectory ht)).bind fun d _ => hrest !d

theorem answers_remove (ha : ∀ arg ∈ args, arg.2.Within p.named) : p.Answers (remove args) := by
  refine answers_withPath hc.toLawful ha fun target ht => ?_
  have hdone : Text.Within p.shown ("Removed: " ++ Path.display target) :=
    within_about hc.toLawful (by decide) ht
  refine (alike_world (hc.isDirectory ht)).bind fun d _ => ?_
  refine alike_ite (fun _ => ?_) fun _ => answers_change (hc.deleteFile ht) hdone
  exact alike_ite (fun _ => answers_fail _) fun _ => answers_change (hc.deleteDirectory ht) hdone

theorem answers_removeDirectory (ha : ∀ arg ∈ args, arg.2.Within p.named) :
    p.Answers (removeDirectory args) :=
  answers_withPath hc.toLawful ha fun _ ht =>
    answers_change (hc.deleteDirectory ht) (within_about hc.toLawful (by decide) ht)

theorem within_about_two {before source dest : Text} (hb : '\r' ∉ before) (hs : p.path source)
    (hd : p.path dest) :
    (before ++ Path.display source ++ " -> " ++ Path.display dest).Within p.shown :=
  Text.within_append.mpr ⟨Text.within_append.mpr ⟨within_about hc.toLawful hb hs,
    Text.within_of_not_mem hc.shown_plain (by decide)⟩, within_shown_path hc.toLawful hd⟩

theorem answers_move (ha : ∀ arg ∈ args, arg.2.Within p.named) : p.Answers (move args) :=
  answers_withPaths hc.toLawful ha fun _ _ hs hd =>
    answers_change (hc.move hs hd) (within_about_two hc (by decide) hs hd)

theorem alike_copy {source dest : Text} (hs : p.path source) (hd : p.path dest) :
    p.world.Alike (Store.copy source dest) fun _ => True :=
  Tie.alike_copy (hc.isDirectory hs) (hc.read hs) fun _ hcontent => hc.createFile hd hcontent

theorem answers_copy (ha : ∀ arg ∈ args, arg.2.Within p.named) : p.Answers (copy args) :=
  answers_withPaths hc.toLawful ha fun _ _ hs hd =>
    answers_change (alike_copy hc hs hd) (within_about_two hc (by decide) hs hd)

theorem answers_write (ha : ∀ arg ∈ args, arg.2.Within p.named) (hpiped : p.Feeds piped) :
    p.Answers (write args piped) := by
  rw [Command.write]
  split
  · exact answers_usage
  · rename_i path hpath
    have hcontent : ((args.text? .content).getD (piped.getD [])).Within p.shown := by
      cases htext : args.text? .content with
      | some t => exact (within_text? ha htext).mono fun _ => hc.shown_named
      | none =>
          cases piped with
          | none => exact Text.within_nil
          | some t => exact hpiped t rfl
    refine (alike_resolve_text hc.toLawful ha hpath).bind fun target ht => ?_
    have hdone : Text.Within p.shown ("Written to: /" ++ target) :=
      Text.within_append.mpr
        ⟨Text.within_of_not_mem hc.shown_plain (by decide), hc.shown_path ht⟩
    refine (alike_world (hc.holds ht)).bind fun held _ => ?_
    refine alike_ite (fun _ => ?_) fun _ => answers_change (hc.createFile ht hcontent) hdone
    refine alike_ite (fun _ => ?_) fun _ => answers_change (hc.write ht hcontent) hdone
    refine (alike_world (hc.read ht)).bind fun former hformer => ?_
    exact answers_change (hc.write ht (Text.within_append.mpr ⟨hformer, hcontent⟩)) hdone

theorem alike_storePicked {files : List PickedFile}
    (h : ∀ file ∈ files, p.picked file.name ∧ file.content.Within p.shown) :
    p.state.Alike (storePicked files) fun targets => ∀ target ∈ targets, p.path target := by
  induction files with
  | nil => exact alike_pure (by simp)
  | cons file files ih =>
      obtain ⟨hname, hcontent⟩ := h file (by simp)
      refine bind_shell hc.toLawful fun a debug hab => ?_
      have ht : p.path (Path.join [a.cwd, file.name]) := hc.path_picked hab hname
      refine (alike_world (hc.createFile ht hcontent)).bind fun _ _ => ?_
      refine (ih fun file hmem => h file (by simp [hmem])).bind fun targets htargets => ?_
      exact alike_pure (by simpa using ⟨ht, htargets⟩)

theorem answers_importFiles (h : p.Admits ⟨.importFiles, args⟩) : p.Answers (importFiles args) := by
  refine bind_shell hc.toLawful fun a debug hab => ?_
  have hpicker : a.picker = p.picker := hc.picker hab
  dsimp only
  split
  · exact answers_fail _
  · exact answers_fail _
  · exact answers_fail _
  · rename_i picker requested _ hsome hrequested
    rw [hpicker] at hsome
    refine pairs_disk.bind ?_
    rintro d d' ⟨v, w, hworlds, rfl, rfl⟩
    have hpicked := hc.pick hsome hworlds (within_texts? h.values hrequested) ?_
    · refine (pairs_liftM hpicked).bind ?_
      rintro picked _ ⟨rfl, hfiles⟩
      refine (alike_storePicked hc hfiles).bind fun targets htargets => ?_
      have hplain {t : Text} (ht : '\r' ∉ t) : t.Within p.shown :=
        Text.within_of_not_mem hc.shown_plain ht
      refine answers_ok ?_
      simp only [Text.within_append]
      refine ⟨⟨⟨hplain (by decide), Text.within_ofNat hc.shown_plain _⟩, hplain (by decide)⟩,
        Text.within_join (hplain (by decide)) ?_⟩
      intro line hline
      obtain ⟨target, htarget, rfl⟩ := List.mem_map.mp hline
      exact within_about hc.toLawful (by decide) (htargets target htarget)
    · intro name hname source hsource
      refine h.near hsome hab source ?_
      simp only [Shell.stageAddresses, hrequested, Option.getD_some]
      exact List.mem_filterMap.mpr ⟨name, hname, by rw [hsource]; rfl⟩


theorem answers_resetAll : p.Answers resetAll :=
  (alike_world hc.clear).bind fun _ _ => (alike_enter hc.toLawful hc.path_root).bind fun _ _ =>
    answers_ok (Text.within_of_not_mem hc.shown_plain (by decide))

/-- Every command, as far as the use of storage may be asked for. -/
theorem answers_ofVerb (h : p.Admits ⟨v, args⟩) (hpiped : p.Feeds piped)
    (hinfo : v = .storageInfo → p.world.Alike Store.storageInfo fun _ => True) :
    p.Answers (ofVerb v args piped) := by
  by_cases hv : v ∉ Verb.changing
  · exact answers_ofVerb_of_not_mem hc.toLawful hv h hpiped hinfo
  · cases v with
    | makeDirectory => exact answers_makeDirectory hc h.values
    | createEmpty => exact answers_createEmpty hc h.values
    | remove => exact answers_remove hc h.values
    | removeDirectory => exact answers_removeDirectory hc h.values
    | move => exact answers_move hc h.values
    | copy => exact answers_copy hc h.values
    | write => exact answers_write hc h.values hpiped
    | importFiles => exact answers_importFiles hc h
    | resetAll => exact answers_resetAll hc
    | _ => exact absurd (by decide) hv

end Pairing

end PipeShell
