import PipeShell.Proofs.Store.Action
import PipeShell.Proofs.Terminal.Keys
import PipeShell.Proofs.Text.Utf8
import PipeShell.Terminal.Session

/-!
# Cutting the input of a session

A character that is cut by the reads is held back until it is complete; a key that is cut is not.
So a session does not depend on how its input is cut as long as no cut falls inside a key.
-/

namespace PipeShell

namespace Session

/-- The reads cut the bytes, each of them as a read may be. -/
structure IsCutting (bytes : List UInt8) (reads : List (List UInt8)) : Prop where
  flatten_eq : reads.flatten = bytes
  ne_nil : ∀ read ∈ reads, read ≠ []
  length_le : ∀ read ∈ reads, read.length ≤ maxRead

/-- Every read ends where a key of the whole input ends, or with a character that is not complete
after such a place. -/
def KeepsKeys (reads : List (List UInt8)) : Prop :=
  ∀ i, Keys.IsBoundary (Text.decodeChunk none reads.flatten).1
    (Text.decodeChunk none (reads.take i).flatten).1.length

variable {started : Option Text.Started} {reads : List (List UInt8)} {i : Nat}

theorem flatten_take_decodeReads :
    ((decodeReads started reads).take i).flatten
      = (Text.decodeChunk started (reads.take i).flatten).1 := by
  induction reads generalizing started i with
  | nil => simp [decodeReads, Text.decodeChunk]
  | cons read reads ih =>
      cases i with
      | zero => rfl
      | succ i => simp [decodeReads, ih, Text.decodeChunk_append]

theorem flatten_decodeReads :
    (decodeReads started reads).flatten = (Text.decodeChunk started reads.flatten).1 := by
  have hlength : (decodeReads started reads).length = reads.length := by
    induction reads generalizing started with
    | nil => rfl
    | cons read reads ih => simp [decodeReads, ih]
  rw [← List.take_of_length_le (Nat.le_of_eq hlength), flatten_take_decodeReads, List.take_length]

/-- The keys that a session is fed with the reads. -/
def keysOf (reads : List (List UInt8)) : List Text :=
  (decodeReads none reads).flatMap Keys.split

/-- The keys of the reads are those of the whole input exactly when no read ends inside a key. -/
theorem keysOf_eq_iff :
    keysOf reads = Keys.split (Text.decodeChunk none reads.flatten).1 ↔ KeepsKeys reads := by
  rw [keysOf, ← flatten_decodeReads, Keys.flatMap_split_eq_iff, flatten_decodeReads]
  simp only [flatten_take_decodeReads, KeepsKeys]

/-! ## Feeding -/

theorem feedAll_append (keys more : List Text) :
    feedAll (keys ++ more) = do if ← feedAll keys then feedAll more else return false := by
  induction keys with
  | nil => simp [feedAll]
  | cons key keys ih =>
      simp only [List.cons_append, feedAll, ih, bind_assoc]
      congr 1
      funext alive
      cases alive <;> simp

theorem feedReads_eq (texts : List Text) :
    feedReads texts = (fun _ => ()) <$> feedAll (texts.flatMap Keys.split) := by
  induction texts with
  | nil => simp [feedReads, feedAll]
  | cons t texts ih =>
      simp only [feedReads, List.flatMap_cons, feedAll_append, ih, map_bind]
      congr 1
      funext alive
      cases alive <;> simp

theorem run_eq_of_keysOf_eq {a b : List (List UInt8)} (h : keysOf a = keysOf b) : run a = run b := by
  simp only [keysOf] at h
  simp only [run, feedReads_eq, h]

/-- Two ways of cutting an input lead a session to the same state, with the same text written, when
no read ends inside a key. -/
theorem run_eq_of_keepsKeys {bytes : List UInt8} {a b : List (List UInt8)} (ha : IsCutting bytes a)
    (hb : IsCutting bytes b) (hka : KeepsKeys a) (hkb : KeepsKeys b) (s : Session) :
    (run a).outcome s = (run b).outcome s := by
  have hkeys : keysOf a = keysOf b := by
    rw [keysOf_eq_iff.mpr hka, keysOf_eq_iff.mpr hkb, ha.flatten_eq, hb.flatten_eq]
  rw [run_eq_of_keysOf_eq hkeys]

/-- A session on an empty store. -/
def onEmpty : Session :=
  start { shell := {}, world := { backing := .memory { quota := Memory.defaultQuota } } }

/-- The two bytes of a letter may come with different reads, and an arrow after it with its own. -/
theorem run_eq_of_cut_letter :
    (run [[0xC3], [0xA9], [27, 91, 68]]).outcome onEmpty
      = (run [[0xC3, 0xA9, 27, 91, 68]]).outcome onEmpty := by
  have hcut : IsCutting [0xC3, 0xA9, 27, 91, 68] [[0xC3], [0xA9], [27, 91, 68]] := by
    constructor <;> decide
  have hwhole : IsCutting [0xC3, 0xA9, 27, 91, 68] [[0xC3, 0xA9, 27, 91, 68]] := by
    constructor <;> decide
  have hkeepsCut : KeepsKeys [[0xC3], [0xA9], [27, 91, 68]] := keysOf_eq_iff.mp (by decide +kernel)
  have hkeepsWhole : KeepsKeys [[0xC3, 0xA9, 27, 91, 68]] := keysOf_eq_iff.mp (by decide +kernel)
  exact run_eq_of_keepsKeys hcut hwhole hkeepsCut hkeepsWhole _

/-- An arrow whose escape comes with the read before the rest of it moves nothing, and the rest is
inserted into the line. -/
theorem run_ne_of_cut_arrow :
    IsCutting [97, 98, 27, 91, 68, 99] [[97, 98, 27, 91, 68, 99]]
      ∧ IsCutting [97, 98, 27, 91, 68, 99] [[97, 98, 27], [91, 68, 99]]
      ∧ ((run [[97, 98, 27, 91, 68, 99]]).outcome onEmpty).2.editor.buffer = "acb"
      ∧ ((run [[97, 98, 27], [91, 68, 99]]).outcome onEmpty).2.editor.buffer = "ab[Dc" := by
  refine ⟨?_, ?_, ?_, ?_⟩
  · constructor <;> decide
  · constructor <;> decide
  · decide +kernel
  · decide +kernel

end Session

end PipeShell
