import PipeShell.Proofs.Shell.Calls
import PipeShell.Proofs.Shell.Twins

/-!
# Interchangeable stores

Whether a shell has its store in memory or on disk cannot be told from its answers, as long as the
store in memory is not full and the lines do not reach for the directory of the store on disk in
another way.
-/

namespace PipeShell

open Shell (RunsStages runCalls)

/-- Two worlds without faults: the one has an empty store in memory, the other an empty store on
disk. Outside of the store the disks of both are the same. -/
structure World.Fresh (h : Host) (v w : World) : Prop where
  memory : ∃ quota, v.backing = .memory { quota }
  host : w.backing = .host h
  faults : v.faults = {}
  faults' : w.faults = {}
  fits : h.Fits w.disk
  mirrors : h.Mirrors w.disk .bare
  apart : Disk.SameOutside h.root v.disk w.disk

theorem World.Fresh.twin {h : Host} {v w : World} (hf : Fresh h v w) :
    ∃ m, Twin h w.disk.workingDirectory m v w := by
  obtain ⟨quota, hmemory⟩ := hf.memory
  have hbare : Memory.pathMap { quota } = .bare := Memory.pathMap_clear { quota }
  exact ⟨_, {
    memory := hmemory
    host := hf.host
    faults := hf.faults
    faults' := hf.faults'
    tidy := trivial
    clean := hbare ▸ PathMap.clean_bare
    fits := hf.fits
    mirrors := hbare ▸ hf.mirrors
    apart := hf.apart
    here := rfl }⟩

namespace Shell

/-- Runs lines one after another, and gives what is answered to each of them. -/
abbrev runLines (lines : List Text) : ShellState → List (Except Failure Result) × ShellState :=
  runCalls (lines.map .exec)

/-- What a caller sees of an answer: the output if it succeeded. -/
def output? : Except Failure Result → Option Text
  | .ok r => if r.succeeded then some r.output else none
  | .error _ => none

/-- The line failed because the store was full. -/
def Overfills (line : Text) (answer : Except Failure Result) : Prop :=
  (∃ stages, RunsStages line stages)
    ∧ ∃ r projected quota, answer = .ok r
      ∧ r.error = some (Failure.quotaExceeded projected quota).message

/-- No carriage return and no NUL is in the line, and it does not ask how much the store holds. Its
imports and exports stay away from what is below the root, wherever the shell is, and neither the
names of imported files nor the addresses that are exported to have a carriage return. -/
structure Portable (a : Shell) (root here : List Text) (line : Text) : Prop where
  letters : line.Within Path.Letter
  storage : ∀ stages, RunsStages line stages → ∀ stage ∈ stages, stage.verb ≠ .storageInfo
  outside : ∀ stages, RunsStages line stages → ∀ stage ∈ stages, ∀ p ∈ a.picker, ∀ cwd,
    Path.Fair cwd → ∀ place ∈ { a with cwd }.stageAddresses p stage,
      place.Avoids root here
        ∧ '\r' ∉ if stage.verb = .importFiles then place.name else place.toText

variable {a : Shell} {h : Host} {here : List Text} {line : Text} {stages : List Stage} {stage : Stage}

theorem RunsStages.within {A : Char → Prop} (hruns : RunsStages line stages) (hspace : A ' ')
    (hline : line.Within A) (hmem : stage ∈ stages) : stage.args.Within A := by
  obtain ⟨-, pipeline, hread, -, -, rfl⟩ := hruns
  exact Pipeline.within_read hspace hline hread stage hmem

theorem RunsStages.eq_of_read {read : List Stage} (hruns : RunsStages line stages)
    (hread : (Pipeline.read line).map Pipeline.stages = .ok read) : stages = read := by
  obtain ⟨-, pipeline, hpipeline, -, -, rfl⟩ := hruns
  rw [hpipeline] at hread
  exact Except.ok.inj hread

theorem Portable.admits (hline : a.Portable h.root here line) (hruns : RunsStages line stages)
    (hmem : stage ∈ stages) : (Pairing.twins h here a.picker).Admits stage where
  values := hruns.within (A := Path.Letter) (by decide) hline.letters hmem
  near := by
    rintro p b c hp ⟨-, -, hcwd⟩ place hplace
    exact hline.outside stages hruns stage hmem p hp b.cwd hcwd place hplace

theorem Portable.handles (hline : a.Portable h.root here line)
    (hbase : ∀ p ∈ a.picker, p.base.Proper) (hruns : RunsStages line stages)
    (hmem : stage ∈ stages) :
    (Pairing.twins h here a.picker).Handles Command.ofVerb Command.ofVerb stage := by
  intro b _ _ piped hpiped
  refine Pairing.answers_ofVerb (Pairing.changing_twins hbase) (hline.admits hruns hmem) hpiped ?_
  exact fun hverb => absurd hverb (hline.storage stages hruns stage hmem)

theorem output?_eq_of_sameAnswer {p : Pairing} {x y : Except Failure Result}
    (h : p.SameAnswer x y) : output? x = output? y := by
  have hnone {r : Result} (he : r.error ≠ none) : output? (.ok r) = none := by
    simpa [output?, Result.succeeded] using he
  cases h with
  | unread => rfl
  | gave => rfl
  | failed he he' _ => rw [hnone he, hnone he']

theorem not_overfills_of_output? {answer : Except Failure Result} (h : output? answer ≠ none) :
    ¬Overfills line answer := by
  rintro ⟨-, r, projected, quota, rfl, he⟩
  exact h (by simp [output?, Result.succeeded, he])

/-- A disk with an empty directory for a store, and another with two files. -/
def sharedDisk : Disk where
  tree := .folder "srv" .empty
    (.folder "in" (.file "a" (Text.encode "text") (.file "\r" [] .empty)) .empty)
  longestName := none

/-- An empty store in memory. -/
def inMemory : World :=
  { backing := .memory { quota := 1000 }, disk := sharedDisk }

/-- An empty store on disk. -/
def onDisk (encoding : Encoding) : World :=
  { backing := .host ⟨.ofSegments ["srv"], ["srv"], encoding, 0⟩, disk := sharedDisk }

theorem fresh_onDisk :
    World.Fresh ⟨.ofSegments ["srv"], ["srv"], .utf8, 0⟩ inMemory (onDisk .utf8) := by
  have hdistinct : sharedDisk.tree.Distinct := by
    simp [sharedDisk, Folder.Distinct, Folder.Tidy, Folder.child?]
  refine ⟨⟨1000, rfl⟩, rfl, rfl, rfl, ⟨rfl, ?_, rfl, hdistinct⟩, ?_, ?_⟩
  · simp [Disk.Plain]
  · intro path
    cases path with
    | nil => rfl
    | cons => rfl
  · exact ⟨rfl, rfl, hdistinct, hdistinct, rfl, fun _ _ => rfl⟩

/-- The shell that imports from the other directory. -/
def importer : Shell :=
  { picker := some ⟨.ofSegments ["in"], []⟩ }

theorem portable_importer :
    ∀ line ∈ (["import a", "mv a d"] : List Text), importer.Portable ["srv"] [] line := by
  have himport : ∀ stages, RunsStages "import a" stages →
      stages = [⟨.importFiles, [(.paths, .texts ["a"])]⟩] :=
    fun stages hruns => hruns.eq_of_read (by decide +kernel)
  have hmove : ∀ stages, RunsStages "mv a d" stages →
      stages = [⟨.move, [(.source, .text "a"), (.dest, .text "d")]⟩] :=
    fun stages hruns => hruns.eq_of_read (by decide +kernel)
  simp only [List.forall_mem_cons, List.not_mem_nil, false_implies, implies_true, and_true]
  constructor
  · refine ⟨by simp [Path.Letter], ?_, ?_⟩
    · intro stages hruns
      rw [himport stages hruns]
      decide
    · intro stages hruns stage hmem p hp cwd _ place hplace
      rw [himport stages hruns] at hmem
      obtain rfl := List.mem_singleton.mp hmem
      cases hp
      have haddresses : { importer with cwd }.stageAddresses ⟨.ofSegments ["in"], []⟩
          ⟨.importFiles, [(.paths, .texts ["a"])]⟩ = [.ofSegments ["in", "a"]] := rfl
      obtain rfl := List.mem_singleton.mp (haddresses ▸ hplace)
      decide
  · refine ⟨by simp [Path.Letter], ?_, ?_⟩
    · intro stages hruns
      rw [hmove stages hruns]
      decide
    · intro stages hruns stage hmem p hp cwd _ place hplace
      rw [hmove stages hruns] at hmem
      obtain rfl := List.mem_singleton.mp hmem
      simp [stageAddresses] at hplace

/-- What is answered to lines on the two stores. -/
def answersOnBoth (a : Shell) (encoding : Encoding) (lines : List Text) :
    List (Option Text) × List (Option Text) :=
  ((runLines lines ⟨a, inMemory⟩).1.map output?, (runLines lines ⟨a, onDisk encoding⟩).1.map output?)

end Shell

end PipeShell
