import PipeShell.Proofs.Shell.Calls
import PipeShell.Proofs.Shell.Paired

/-!
# Allow-lists

A shell with an allow-list only runs commands whose verbs are on it. When no verb on the list can
change the store, no call does.
-/

namespace PipeShell

/-- A shell that runs twice, from equal states. Its worlds keep `I`, its allow-list and its picker
stay. -/
def Pairing.twice (I : World → Prop) (allowed : Option (List Verb)) (picker : Option Picker) :
    Pairing where
  picker := picker
  worlds v w := v = w ∧ I v
  shells a b := a = b ∧ a.allowed = allowed ∧ a.picker = picker
  lax := False
  excused _ := False
  named _ := True
  shown _ := True
  path _ := True
  picked _ := True
  near _ _ := True

namespace Pairing

variable {I : World → Prop} {allowed : Option (List Verb)} {picker : Option Picker}
  {α : Type} {P : α → Prop}

theorem within_any {t : Text} : t.Within fun _ => True :=
  fun _ _ => trivial

theorem alike_twice {x : Action World α} (hP : ∀ a, P a) (h : ∀ w, I w → I (x.outcome w).2) :
    (twice I allowed picker).world.Alike x P :=
  Tie.alike_of_yields ⟨h, fun _ _ => Attempt.gives_of (fun a _ => hP a) fun _ _ => trivial⟩

theorem outcome_ask_snd (memory : Memory → Except Failure α) (host : Host → Disk → Except Failure α)
    (w : World) : ((World.ask memory host).outcome w).2 = w := by
  simp only [Action.outcome, World.ask]
  split <;> rfl

theorem alike_twice_ask {memory : Memory → Except Failure α}
    {host : Host → Disk → Except Failure α} (hP : ∀ a, P a) :
    (twice I allowed picker).world.Alike (World.ask memory host) P :=
  alike_twice hP fun w hw => by rwa [outcome_ask_snd]

theorem lawful_twice (hI : ∀ v w, v.backing = w.backing → I v → I w) :
    (twice I allowed picker).Lawful where
  view := fun ⟨h, _⟩ => by rw [h]
  picker := fun ⟨_, _, h⟩ => h
  cwd _ := within_any
  enter := by
    rintro a _ cwd ⟨rfl, hallowed, hpicker⟩ -
    exact ⟨rfl, hallowed, hpicker⟩
  path_root := trivial
  path_resolve _ _ := trivial
  path_into _ _ := trivial
  path_picked _ _ := trivial
  shown_path _ := within_any
  shown_named _ := trivial
  shown_plain _ _ := trivial
  list _ := by
    refine Tie.Pairs.mono (alike_twice_ask (P := fun _ => True) fun _ => trivial) ?_
    rintro es _ ⟨rfl, -⟩
    exact ⟨rfl, fun _ => rfl, fun _ _ => ⟨within_any, within_any⟩⟩
  read _ := by
    refine alike_twice (fun _ => within_any) fun w hw => ?_
    simp only [Store.read, Action.outcome_bind, Action.outcome_get]
    split
    · exact hw
    · rwa [outcome_ask_snd]
  holds _ := alike_twice_ask fun _ => trivial
  isDirectory _ := alike_twice_ask fun _ => trivial
  countClear := alike_twice (fun _ => trivial) fun w hw => hI w _ rfl hw
  pick := by
    rintro v _ picker names - ⟨rfl, -⟩ - -
    exact Tie.sameAttempts_self fun _ _ _ _ => ⟨trivial, within_any⟩
  save _ _ _ := alike_twice (fun _ => within_any) fun w hw => hI w _ rfl hw

theorem steady_twice (hI : ∀ v w, v.backing = w.backing → I v → I w) :
    (twice I allowed picker).Steady where
  view := And.left
  noted := by
    rintro v _ records records' ⟨rfl, hv⟩ hr
    obtain rfl : records = records' := hr.resolve_right id
    exact ⟨rfl, hI v _ rfl hv⟩
  expected h := h.elim

theorem changing_twice :
    (twice (fun _ => True) allowed picker).Changing where
  toLawful := lawful_twice fun _ _ _ _ => trivial
  write _ _ := alike_twice (fun _ => trivial) fun _ _ => trivial
  createFile _ _ := alike_twice (fun _ => trivial) fun _ _ => trivial
  createDirectory _ := alike_twice (fun _ => trivial) fun _ _ => trivial
  deleteFile _ := alike_twice (fun _ => trivial) fun _ _ => trivial
  deleteDirectory _ := alike_twice (fun _ => trivial) fun _ _ => trivial
  move _ _ := alike_twice (fun _ => trivial) fun _ _ => trivial
  clear := alike_twice (fun _ => trivial) fun _ _ => trivial

theorem admits_twice (stage : Stage) : (twice I allowed picker).Admits stage :=
  ⟨fun arg _ => by cases arg.2 <;> simp [Value.Within, within_any, twice], fun _ _ _ _ => trivial⟩

theorem handles_twice {words : List Text} {handlers : Handlers}
    (hhandlers : ∀ v ∈ Shell.allowList words, handlers v = Command.ofVerb v)
    (hanswers : ∀ v ∈ Shell.allowList words, ∀ args piped,
      (twice I (some (Shell.allowList words)) picker).Answers (Command.ofVerb v args piped))
    (stage : Stage) :
    (twice I (some (Shell.allowList words)) picker).Handles handlers Command.ofVerb stage := by
  intro a ha hallows piped _
  have hmem : stage.verb ∈ Shell.allowList words := by
    simpa [Shell.allows, ha.2.1] using hallows
  rw [hhandlers _ hmem]
  exact hanswers _ hmem _ _

/-- Two tables of commands that are not told apart stage by stage are not told apart by calls. -/
theorem runCalls_eq_of_handles {handlers handlers' : Handlers} {s : ShellState}
    (hI : ∀ v w, v.backing = w.backing → I v → I w) (hs : I s.world)
    (hstages : ∀ stage,
      (twice I s.shell.allowed s.shell.picker).Handles handlers handlers' stage)
    (calls : List ShellCall) :
    handlers.runCalls calls s = handlers'.runCalls calls s ∧ I (handlers'.runCalls calls s).2.world := by
  have hstates : (twice I s.shell.allowed s.shell.picker).state.states s s :=
    ⟨⟨rfl, rfl, rfl⟩, rfl, hs⟩
  have hagreed := agreed_runCalls (steady_twice hI) hstates
    (fun call (_ : call ∈ calls) stage _ => hstages stage) fun _ _ _ _ _ hf => hf.elim
  generalize handlers.runCalls calls s = out at hagreed ⊢
  generalize handlers'.runCalls calls s = out' at hagreed ⊢
  obtain ⟨answers, ⟨shell, world⟩⟩ := out
  obtain ⟨answers', ⟨shell', world'⟩⟩ := out'
  obtain ⟨hanswers, ⟨rfl, -, -⟩, rfl, hend⟩ := hagreed
  have hsame : answers = answers' := by
    rw [← List.forall₂_eq_eq_eq]
    refine hanswers.imp fun x y hxy => ?_
    cases hxy with
    | unread => rfl
    | gave => rfl
    | failed _ _ hr => rw [hr.resolve_right id]
  exact ⟨by rw [hsame], hend⟩

end Pairing

namespace Shell

/-- Commands outside of the allow-list are never run: whatever stands in their place, the calls are
answered the same and leave the same state. So if none of the allowed ones changes the store, a store
in memory stays what it is. -/
theorem runCalls_of_allowed {words : List Text} {s : ShellState}
    (hallowed : s.shell.allowed = some (allowList words)) (calls : List ShellCall) :
    (∀ handlers : Handlers, (∀ v ∈ allowList words, handlers v = Command.ofVerb v) →
        handlers.runCalls calls s = runCalls calls s)
      ∧ ∀ m, s.world.backing = .memory m →
        (∀ word ∈ words, ∀ v ∈ Verb.changing, Verb.resolve? word ≠ some v) →
        (runCalls calls s).2.world.backing = .memory m := by
  constructor
  · intro handlers hhandlers
    refine (Pairing.runCalls_eq_of_handles (I := fun _ => True) (fun _ _ _ _ => trivial) trivial ?_
      calls).1
    rw [hallowed]
    refine Pairing.handles_twice hhandlers fun v _ args piped => ?_
    refine Pairing.answers_ofVerb Pairing.changing_twice (Pairing.admits_twice _)
      (fun _ _ => Pairing.within_any) fun _ => Pairing.alike_twice (fun _ => trivial) fun _ _ => trivial
  · intro m hm hwords
    have hkeeps : ∀ v w : World, v.backing = w.backing → v.backing = .memory m →
        w.backing = .memory m := fun v w h hv => h ▸ hv
    refine (Pairing.runCalls_eq_of_handles (I := (·.backing = .memory m)) hkeeps hm
      (fun stage => ?_) calls : runCalls calls s = _ ∧ _).2
    rw [hallowed]
    refine Pairing.handles_twice (fun _ _ => rfl) (fun v hv args piped => ?_) stage
    obtain ⟨word, hword, hresolve⟩ := List.mem_filterMap.mp hv
    have hv : v ∉ Verb.changing := fun h => hwords word hword v h hresolve
    refine Pairing.answers_ofVerb_of_not_mem (Pairing.lawful_twice hkeeps) hv
      (Pairing.admits_twice _) (fun _ _ => Pairing.within_any) fun _ => ?_
    refine Pairing.alike_twice (fun _ => trivial) fun w hw => ?_
    simp only [Store.storageInfo, Action.outcome_bind, Action.outcome_get]
    repeat' split
    all_goals exact hw

/-- A store in memory that holds the file `a`, in a shell that only lists and shows. -/
def readersOnly : ShellState where
  shell := { allowed := some (allowList ["LS", "Less", "nothing"]) }
  world := { backing := .memory ⟨Folder.empty.write ["a"] "text", 100⟩ }

theorem store_kept_by_readers :
    (runCalls
        [.exec "more a | write b", .execScript "ls\nrm a",
          .execute { stages := [⟨.listDirectory, []⟩, ⟨.resetAll, []⟩] }]
        readersOnly).2.world.backing
      = .memory ⟨Folder.empty.write ["a"] "text", 100⟩ :=
  (runCalls_of_allowed rfl _).2 _ rfl (by decide)

end Shell

end PipeShell
