import PipeShell.Proofs.Folder.Outline
import PipeShell.Proofs.Shell.Children
import PipeShell.Proofs.Text.Within

/-!
# What a tree shows

The lines of a tree are the rows of an outline of all that a directory holds. Each line starts with a
unit of four characters for each directory above it and a connector, so the depths, the names and the
kinds of all entries can be read back from the output alone.
-/

namespace PipeShell

open PipeShell.Path (segments ofSegments IsSegment)

namespace OutlineRow

/-- What stands in front of the rows of a directory: four characters for each directory above. -/
def indent (guides : List Bool) : Text :=
  guides.flatMap fun last => if last then "    " else "│   "

/-- The name, with a slash behind it if it is one of a directory. -/
def label (r : OutlineRow) : Text :=
  if r.isDirectory then r.name ++ "/" else r.name

/-- The line of the row. -/
def line (r : OutlineRow) : Text :=
  indent r.guides ++ (if r.last then "└── " else "├── ") ++ r.label

theorem indent_concat (guides : List Bool) (last : Bool) :
    indent (guides ++ [last]) = indent guides ++ if last then "    " else "│   " := by
  rw [indent, List.flatMap_append, List.flatMap_singleton]
  cases last <;> rfl

end OutlineRow

open OutlineRow (indent indent_concat)

/-! ## The lines -/

namespace Folder

variable {f inside : Folder Text} {root path : List Text}

/-- The lines of a directory are those of its rows in the arranged store. -/
theorem treeLines_listing (hf : f.Tidy IsSegment) (hroot : ∀ s ∈ root, IsSegment s)
    (h : f.arrange.node? path = some (.folder inside)) (fuel : Nat)
    (hfuel : inside.kinds.length < fuel) (guides : List Bool) :
    Command.treeLines (f.listing root) fuel (ofSegments (root ++ path)) (indent guides)
      = (inside.rows (root ++ path) guides).map OutlineRow.line := by
  refine eq_map_rows OutlineRow.line (fun fuel path guides =>
    Command.treeLines (f.listing root) fuel (ofSegments (root ++ path)) (indent guides))
    root (tidy_arrange hf) (fun fuel path guides inside h => ?_) h hfuel
  rw [Command.treeLines, ordered_childrenOf_listing hf hroot h, level, List.zipIdx_map,
    List.flatMap_map, List.length_map]
  refine List.flatMap_congr fun c _ => ?_
  obtain ⟨⟨name, kind⟩, n⟩ := c
  have hlabel : Command.label (Memory.entry (root ++ path ++ [name]) kind)
      = if kind then name ++ "/" else name := by
    simp [Command.label, Memory.entry]
  have hbelow : (Memory.entry (root ++ path ++ [name]) kind).path
      = ofSegments (root ++ (path ++ [name])) := by
    rw [← List.append_assoc]
    rfl
  simp only [Prod.map_apply, id_eq, hlabel, hbelow, OutlineRow.line, OutlineRow.label,
    indent_concat, decide_eq_true_eq]
  rfl

end Folder

namespace Command

open PipeShell.Action

variable {s : ShellState} {m : Memory} {args : Args} {target : Text} {inside : Folder Text}

theorem outcome_tree (hm : m.Tidy IsSegment) (hw : s.world.backing = .memory m)
    (htarget : s.shell.resolve (args.text? .path) = target) (hnormal : Path.Normal target)
    (h : m.tree.node? (segments target) = some (.folder inside)) :
    (tree args).outcome s = (.ok (.ok (Text.join ['\n'] (Path.display target
      :: (inside.arrange.rows (segments target) []).map OutlineRow.line))), s) := by
  have hdir : m.isDirectory target = true := Memory.isDirectory_iff_exists.mpr ⟨inside, h⟩
  have hinside : inside.Tidy IsSegment := hm.node h
  have hlength : (inside.listing (segments target)).length = inside.arrange.kinds.length := by
    rw [Folder.listing, List.length_map, (Folder.kinds_arrange_perm hinside).length_eq]
  have hlines := Folder.treeLines_listing hinside (Path.isSegment_segments target)
    (Folder.node?_nil inside.arrange) (inside.arrange.kinds.length + 1) (Nat.lt_succ_self _) []
  rw [List.append_nil, hnormal.ofSegments_segments] at hlines
  simp only [tree, outcome_bind, outcome_resolve, htarget, outcome_requireDirectory hw hdir,
    outcome_liftM_world, Store.outcome_list hw, Memory.list_eq_listing h, outcome_pure, hlength]
  rw [← hlines]
  rfl

end Command

theorem Folder.isOutline_listing {f : Folder Text} {root : List Text} (hf : f.Tidy IsSegment)
    (hroot : ∀ s ∈ root, IsSegment s) :
    IsOutline root ((f.listing root).map fun e => (segments e.path, e.isDirectory))
      (f.arrange.rows root []) := by
  have houtline := isOutline_rows (tidy_arrange hf) (ordered_arrange hf) root
  rw [map_listing hf hroot]
  exact { houtline with entries := houtline.entries.trans ((kinds_arrange_perm hf).map _) }

/-! ## Reading a tree back -/

/-- The number of units in front of the connector of a line, and what comes after the connector. -/
def readRow? : Text → Option (Nat × Text)
  | a :: b :: c :: d :: rest =>
      if [a, b, c, d] = ("└── " : Text) ∨ [a, b, c, d] = ("├── " : Text) then some (0, rest)
      else (readRow? rest).map fun (units, label) => (units + 1, label)
  | _ => none

/-- The name in a label, and whether the label is one of a directory. -/
def readLabel (label : Text) : Text × Bool :=
  if label.getLast? = some '/' then (label.dropLast, true) else (label, false)

/-- The paths of the entries of lines and whether they are directories. What stands above an entry
are the first names of the entry before it. -/
def readRows (root : Nat) : List Text → List Text → List (List Text × Bool)
  | _, [] => []
  | previous, line :: rest =>
      match readRow? line with
      | none => []
      | some (units, label) =>
          let path := previous.take (root + units) ++ [(readLabel label).1]
          (path, (readLabel label).2) :: readRows root path rest

/-- The paths of all entries that a tree shows, and whether they are directories. -/
def readTree (output : Text) : List (Text × Bool) :=
  match Text.pieces (· == '\n') output with
  | [] => []
  | first :: rest =>
      (readRows (segments first).length (segments first) rest).map fun e => (ofSegments e.1, e.2)

theorem readRow?_connector (last : Bool) (label : Text) :
    readRow? ((if last then "└── " else "├── ") ++ label) = some (0, label) := by
  cases last <;> rfl

theorem readRow?_indent (last : Bool) (guides : List Bool) (rest : Text) :
    readRow? (indent (last :: guides) ++ rest)
      = (readRow? (indent guides ++ rest)).map fun (units, label) => (units + 1, label) := by
  cases last <;> rfl

theorem readRow?_line (r : OutlineRow) : readRow? r.line = some (r.guides.length, r.label) := by
  rw [OutlineRow.line, List.append_assoc]
  induction r.guides with
  | nil => exact readRow?_connector r.last r.label
  | cons last guides ih =>
      rw [readRow?_indent, ih]
      rfl

theorem readLabel_label {r : OutlineRow} (h : IsSegment r.name) :
    readLabel r.label = (r.name, r.isDirectory) := by
  cases hr : r.isDirectory with
  | true => simp [OutlineRow.label, hr, readLabel]
  | false =>
      have hlast : r.name.getLast? ≠ some '/' := fun hlast => h.slashless (List.mem_of_getLast? hlast)
      simp [OutlineRow.label, hr, readLabel, hlast]

/-- Reading the line of a row gives its path and its kind, when the entry before it is below the same
directories. -/
theorem readRows_line {r : OutlineRow} {root : Nat} {previous : List Text} (hname : IsSegment r.name)
    (hdepth : r.above.length = root + r.guides.length)
    (hprevious : previous.take r.above.length = r.above) (lines : List Text) :
    readRows root previous (r.line :: lines) = r.kind :: readRows root r.path lines := by
  rw [readRows, readRow?_line]
  dsimp only
  rw [readLabel_label hname, ← hdepth, hprevious]
  rfl

namespace Folder

variable {f : Folder Text} {above : List Text} {guides : List Bool} {root : Nat}

theorem take_above {name : Text} {previous : List Text}
    (h : previous.take (above ++ [name]).length = above ++ [name]) :
    previous.take above.length = above := by
  have htake := congrArg (List.take above.length) h
  rwa [List.take_take, List.take_left, List.length_append, Nat.min_eq_left (by simp)] at htake

/-- Reading the lines of the rows of a folder gives their paths and kinds. The lines after them are
read behind an entry below the same directories. -/
theorem readRows_rows (hf : f.Tidy IsSegment) (hdepth : above.length = root + guides.length)
    {previous : List Text} (hprevious : previous.take above.length = above) (lines : List Text) :
    ∃ next, next.take above.length = above
      ∧ readRows root previous ((f.rows above guides).map OutlineRow.line ++ lines)
        = (f.rows above guides).map OutlineRow.kind ++ readRows root next lines := by
  -- What a line is about depends on the entry before it, so that is carried along.
  induction f generalizing above guides previous lines with
  | empty => exact ⟨previous, hprevious, rfl⟩
  | file name content rest ih =>
      obtain ⟨hname, -, hrest⟩ := hf
      have hown : (above ++ [name]).take above.length = above := List.take_left
      obtain ⟨next, hnext, hread⟩ := ih hrest hdepth hown lines
      refine ⟨next, hnext, ?_⟩
      rw [rows, List.map_cons, List.cons_append, readRows_line hname hdepth hprevious,
        List.map_cons, List.cons_append, OutlineRow.path_mk, hread]
  | folder name inside rest ihi ih =>
      obtain ⟨hname, -, hinside, hrest⟩ := hf
      have hdepth' : (above ++ [name]).length = root + (guides ++ [rest.isEmpty]).length := by
        simp [hdepth, Nat.add_assoc]
      obtain ⟨middle, hmiddle, hbelow⟩ := ihi hinside hdepth' List.take_length
        ((rest.rows above guides).map OutlineRow.line ++ lines)
      obtain ⟨next, hnext, hread⟩ := ih hrest hdepth (take_above hmiddle) lines
      refine ⟨next, hnext, ?_⟩
      rw [rows, List.map_cons, List.cons_append, readRows_line hname hdepth hprevious,
        List.map_append, List.append_assoc, OutlineRow.path_mk, hbelow, hread, List.map_cons,
        List.map_append, List.cons_append, List.append_assoc]

end Folder

/-- An output with a path and the lines of the rows of what it holds reads back as those rows. -/
theorem readTree_rows {f : Folder Text} (hf : f.Tidy IsSegment) {target out : Text}
    (hout : Text.pieces (· == '\n') out
      = Path.display target :: (f.rows (segments target) []).map OutlineRow.line) :
    readTree out
      = ((f.rows (segments target) []).map OutlineRow.kind).map fun e => (ofSegments e.1, e.2) := by
  have htarget : segments (Path.display target) = segments target :=
    Path.segments_append_slash [] target
  have hdepth : (segments target).length = (segments target).length + ([] : List Bool).length := rfl
  obtain ⟨next, -, hread⟩ := Folder.readRows_rows hf hdepth List.take_length []
  rw [readRows, List.append_nil, List.append_nil] at hread
  rw [readTree, hout]
  dsimp only
  rw [htarget, hread]

/-! ## Names without line feeds -/

theorem OutlineRow.newline_not_mem_line {r : OutlineRow} (h : '\n' ∉ r.name) : '\n' ∉ r.line := by
  have hindent : '\n' ∉ indent r.guides := by
    rw [indent, List.mem_flatMap]
    rintro ⟨last, -, hmem⟩
    cases last <;> exact absurd hmem (by decide)
  have hconnector : '\n' ∉ (if r.last then "└── " else "├── ").toList := by
    cases r.last <;> decide
  have hlabel : '\n' ∉ r.label := by
    cases hr : r.isDirectory <;> simp [label, hr, h]
  rw [line, List.mem_append, List.mem_append]
  exact not_or.mpr ⟨not_or.mpr ⟨hindent, hconnector⟩, hlabel⟩

namespace Memory

variable {m : Memory} {names : List Text} {b : Binding Text} {path : Text} {inside : Folder Text}
  (hm : m.Tidy IsSegment) (hnames : ∀ es, m.list [] = .ok es → ∀ e ∈ es, '\n' ∉ e.name)
include hm hnames

theorem newline_not_mem_bound (h : m.tree.binding? names = some b) : ∀ s ∈ names, '\n' ∉ s := by
  intro s hs
  obtain ⟨e, he, rfl, -⟩ := exists_named hm m.list_eq_listing_root h hs
  exact hnames _ m.list_eq_listing_root e he

theorem newline_not_mem_display (hnormal : Path.Normal path)
    (h : m.tree.node? (segments path) = some (.folder inside)) : '\n' ∉ Path.display path := by
  have hbound := Folder.binding?_eq_directory.mpr ⟨inside, h⟩
  have hwithin : Text.Within (· ≠ '\n') (ofSegments (segments path)) :=
    Path.within_ofSegments (by decide) fun s hs c hc heq =>
      newline_not_mem_bound hm hnames hbound s hs (heq ▸ hc)
  rw [hnormal.ofSegments_segments] at hwithin
  have hdisplay : Text.Within (· ≠ '\n') (Path.display path) :=
    Text.within_cons.mpr ⟨by decide, hwithin⟩
  exact fun hmem => hdisplay _ hmem rfl

theorem newline_not_mem_lines (hnormal : Path.Normal path)
    (h : m.tree.node? (segments path) = some (.folder inside)) :
    ∀ line ∈ Path.display path :: (inside.arrange.rows (segments path) []).map OutlineRow.line,
      '\n' ∉ line := by
  refine List.forall_mem_cons.mpr
    ⟨newline_not_mem_display hm hnames hnormal h, fun line hline => ?_⟩
  have hinside : inside.Tidy IsSegment := hm.node h
  obtain ⟨r, hr, rfl⟩ := List.mem_map.mp hline
  have hkind : r.kind ∈ inside.arrange.kinds.map fun e => (segments path ++ e.1, e.2) := by
    rw [← Folder.map_kind_rows inside.arrange (segments path) []]
    exact List.mem_map_of_mem hr
  obtain ⟨e, he, heq⟩ := List.mem_map.mp hkind
  have hmem := (Folder.kinds_arrange_perm hinside).mem_iff.mp he
  obtain ⟨b, hb, -⟩ := Option.map_eq_some_iff.mp ((Folder.mem_kinds hinside).mp hmem).2
  have hpath : segments path ++ e.1 = r.path := congrArg Prod.fst heq
  have hbound : m.tree.binding? r.path = some b := by
    rw [← hpath, Folder.binding?_of_folder h, hb]
  exact OutlineRow.newline_not_mem_line
    (newline_not_mem_bound hm hnames hbound r.name (by simp [OutlineRow.path]))

end Memory

namespace Command

variable {s : ShellState} {m : Memory} {args : Args} {target : Text}

/-- A tree of a directory tells all that the directory holds. It shows the path of the directory and
then a line for each entry below it, as an outline. The line of an entry has a unit of four
characters for each directory between, and then a connector, which tells whether the entry is the last
one of its directory. As long as no name has a line feed, the paths of all entries, and which of them
are directories, can be read back from the output. -/
theorem tree_readable (hm : m.Reached) (hw : s.world.backing = .memory m)
    (htarget : s.shell.resolve (args.text? .path) = target) (hnormal : Path.Normal target)
    (hdir : m.isDirectory target = true)
    (hnames : ∀ es, m.list [] = .ok es → ∀ e ∈ es, '\n' ∉ e.name) :
    ∃ es rows out, m.list target = .ok es ∧ (tree args).outcome s = (.ok (.ok out), s)
      ∧ Text.pieces (· == '\n') out = Path.display target :: rows.map OutlineRow.line
      ∧ IsOutline (segments target) (es.map fun e => (segments e.path, e.isDirectory)) rows
      ∧ (readTree out).Perm (es.map fun e => (e.path, e.isDirectory)) := by
  have htidy := hm.tidy
  obtain ⟨inside, h⟩ := Memory.isDirectory_iff_exists.mp hdir
  have hinside : inside.Tidy IsSegment := htidy.node h
  have hsegments := Path.isSegment_segments target
  have houtline := Folder.isOutline_listing hinside hsegments
  have hpieces := Text.pieces_join (Memory.newline_not_mem_lines htidy hnames hnormal h)
    (List.cons_ne_nil _ _)
  have hentries : (inside.listing (segments target)).map (fun e => (e.path, e.isDirectory))
      = ((inside.listing (segments target)).map fun e => (segments e.path, e.isDirectory)).map
          fun e => (ofSegments e.1, e.2) := by
    rw [Folder.map_listing hinside hsegments, Folder.listing, List.map_map, List.map_map]
    rfl
  refine ⟨_, _, _, Memory.list_eq_listing h, outcome_tree htidy hw htarget hnormal h, hpieces,
    houtline, ?_⟩
  rw [readTree_rows (Folder.tidy_arrange hinside) hpieces, hentries]
  exact houtline.entries.map _

/-- A shell at the root of a store with a file in a directory and one beside it. -/
def nestedState : ShellState :=
  ⟨{}, .ofMemory Memory.nested {} {}⟩

theorem tree_readable_nested :
    ∃ out, (tree []).outcome nestedState = (.ok (.ok out), nestedState)
      ∧ (readTree out).Perm [(['d'], true), (['d', '/', 'f'], false), (['a'], false)] := by
  have hlist : Memory.nested.list [] = .ok [⟨['d'], ['d'], true⟩, ⟨['f'], ['d', '/', 'f'], false⟩,
      ⟨['a'], ['a'], false⟩] := rfl
  have hw : nestedState.world.backing = .memory Memory.nested := rfl
  have htarget : nestedState.shell.resolve (Args.text? [] .path) = [] := rfl
  have hnames : ∀ es, Memory.nested.list [] = .ok es → ∀ e ∈ es, '\n' ∉ e.name := by
    intro es hes
    obtain rfl := Except.ok.inj (hlist.symm.trans hes)
    decide
  obtain ⟨es, rows, out, hes, hrun, -, -, hread⟩ :=
    tree_readable Memory.reached_nested hw htarget Path.normal_nil rfl hnames
  obtain rfl := Except.ok.inj (hlist.symm.trans hes)
  exact ⟨out, hrun, hread⟩

end Command

end PipeShell
