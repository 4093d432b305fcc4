import PipeShell.Terminal.Editor

/-!
# Screens

A terminal of unbounded width, as far as the row of its cursor goes. It takes what is written to it
character by character, and control sequences change the state in which it takes the next one.
-/

namespace PipeShell

/-- How much of a control sequence has come: nothing, the escape, or the bracket after it with the
number so far. -/
inductive Screen.Progress
  | ground
  | escape
  | control (count : Nat)
  deriving DecidableEq, Repr

/-- The row of the cursor, which is blank past its last cell, and the column of the cursor. -/
structure Screen where
  row : Text := []
  column : Nat := 0
  progress : Screen.Progress := .ground
  deriving DecidableEq, Repr

namespace Screen

/-- A character takes the place of what stands at the cursor, which goes on. -/
def paint (c : Char) (s : Screen) : Screen :=
  { s with
    row := s.row.take s.column ++ List.replicate (s.column - s.row.length) ' '
      ++ c :: s.row.drop (s.column + 1)
    column := s.column + 1 }

/-- A control sequence moves the cursor or blanks the row. No count, or zero, moves by one. -/
def control (count : Nat) (final : Char) (s : Screen) : Screen :=
  match final with
  | 'D' => { s with column := s.column - max 1 count }
  | 'C' => { s with column := s.column + max 1 count }
  | 'K' => if count = 2 then { s with row := [] } else s
  | _ => s

/-- Takes one character. A line feed leads to a fresh row. -/
def put (c : Char) (s : Screen) : Screen :=
  match s.progress with
  | .ground =>
      if Text.isPrintable c then s.paint c
      else match c with
        | '\r' => { s with column := 0 }
        | '\n' => { s with row := [] }
        | '\x08' => { s with column := s.column - 1 }
        | '\x1b' => { s with progress := .escape }
        | _ => s
  | .escape => { s with progress := if c = '[' then .control 0 else .ground }
  | .control count =>
      if c.isDigit then { s with progress := .control (10 * count + (c.toNat - '0'.toNat)) }
      else { s.control count c with progress := .ground }

/-- Takes a text. -/
def type (t : Text) (s : Screen) : Screen :=
  t.foldl (fun s c => s.put c) s

/-- Takes one stroke. Clearing leaves everything blank, with the cursor at home. -/
def take (s : Screen) : Stroke → Screen
  | .write t => s.type t
  | .clear => {}

/-- Takes strokes one after another. -/
def play (strokes : List Stroke) (s : Screen) : Screen :=
  strokes.foldl take s

/-- The cursor stands at the start of a blank row. -/
structure IsFresh (s : Screen) : Prop where
  blank : ∀ c ∈ s.row, c = ' '
  column : s.column = 0
  ground : s.progress = .ground

/-- The screen with `front` before the cursor and `back` from it on. -/
def between (front back : Text) : Screen :=
  { row := front ++ back, column := front.length }

theorem IsFresh.eq_between {s : Screen} (h : s.IsFresh) :
    s = between [] (List.replicate s.row.length ' ') := by
  have hrow : s.row = List.replicate s.row.length ' ' := List.eq_replicate_iff.mpr ⟨rfl, h.blank⟩
  obtain ⟨row, column, progress⟩ := s
  obtain rfl : column = 0 := h.column
  obtain rfl : progress = .ground := h.ground
  rw [between, List.nil_append, ← hrow]
  rfl

theorem isFresh_between (n : Nat) : (between [] (List.replicate n ' ')).IsFresh :=
  ⟨fun _ h => List.eq_of_mem_replicate h, rfl, rfl⟩

/-! ## Taking texts -/

@[simp] theorem type_nil (s : Screen) : s.type [] = s := rfl

theorem type_cons (c : Char) (t : Text) (s : Screen) : s.type (c :: t) = (s.put c).type t := rfl

theorem type_append (t u : Text) (s : Screen) : s.type (t ++ u) = (s.type t).type u :=
  List.foldl_append

@[simp] theorem play_nil (s : Screen) : s.play [] = s := rfl

theorem play_write (t : Text) (strokes : List Stroke) (s : Screen) :
    s.play (.write t :: strokes) = (s.type t).play strokes := rfl

theorem put_printable {c : Char} (hc : Text.isPrintable c = true) (front back : Text) :
    (between front back).put c = between (front ++ [c]) back.tail := by
  have hdrop : (front ++ back).drop (front.length + 1) = back.tail := by
    rw [List.drop_append, List.drop_eq_nil_of_le (by omega), List.nil_append]
    simp
  simp [put, paint, between, hc, hdrop]

/-- Printable text covers what stood at the cursor. -/
theorem type_printable {t : Text} (ht : ∀ c ∈ t, Text.isPrintable c = true) (front back : Text) :
    (between front back).type t = between (front ++ t) (back.drop t.length) := by
  induction t generalizing front back with
  | nil => simp
  | cons c t ih =>
      rw [type_cons, put_printable (ht c (by simp)), ih fun d hd => ht d (by simp [hd])]
      simp

theorem type_digits {t : Text} (ht : ∀ c ∈ t, c.isDigit = true) {s : Screen} {count : Nat}
    (hs : s.progress = .control count) :
    s.type t = { s with progress := .control (Nat.ofDigitChars 10 t count) } := by
  induction t generalizing s count with
  | nil => rw [type_nil, Nat.ofDigitChars_nil, ← hs]
  | cons c t ih =>
      have hput : s.put c = { s with progress := .control (10 * count + (c.toNat - '0'.toNat)) } := by
        simp [put, hs, ht c (by simp)]
      rw [type_cons, hput, ih (fun d hd => ht d (by simp [hd])) rfl, Nat.ofDigitChars_cons]

/-- What a control sequence does is not changed by the state that it was read in. -/
theorem control_ground (count : Nat) (final : Char) {s : Screen} (hs : s.progress = .ground)
    (progress : Progress) :
    { ({ s with progress } : Screen).control count final with progress := .ground }
      = s.control count final := by
  obtain ⟨row, column, _⟩ := s
  obtain rfl := hs
  unfold control
  split
  · rfl
  · rfl
  · split <;> rfl
  · rfl

theorem type_control {final : Char} (hf : final.isDigit = false) (n : Nat) {s : Screen}
    (hs : s.progress = .ground) :
    s.type ("\x1b[" ++ Text.ofNat n ++ [final]) = s.control n final := by
  have hdigits : ∀ c ∈ Text.ofNat n, c.isDigit = true :=
    fun _ => Nat.isDigit_of_mem_toDigits (by simp) (by simp)
  have hcount : Nat.ofDigitChars 10 (Text.ofNat n) 0 = n :=
    Nat.ofDigitChars_toDigits (by simp) (by simp)
  have hescape : Text.isPrintable '\x1b' = false := by decide +kernel
  have hopen : s.type "\x1b[" = { s with progress := .control 0 } := by
    simp [type_cons, put, hs, hescape]
  rw [type_append, type_append, hopen, type_digits hdigits rfl, hcount, type_cons, type_nil]
  simp only [put, hf]
  exact control_ground n final hs (.control n)

/-! ## Motions -/

theorem type_leftward (front middle back : Text) :
    (between (front ++ middle) back).type (Editor.leftward middle.length)
      = between front (middle ++ back) := by
  unfold Editor.leftward
  split
  · rename_i h
    obtain rfl : middle = [] := List.length_eq_zero_iff.mp h
    simp
  · rename_i h
    have hmax : max 1 middle.length = middle.length := by omega
    rw [show ("D" : Text) = ['D'] from rfl, type_control (by decide) _ rfl]
    simp [control, between, hmax]

theorem type_rightward (front middle back : Text) :
    (between front (middle ++ back)).type (Editor.rightward middle.length)
      = between (front ++ middle) back := by
  unfold Editor.rightward
  split
  · rename_i h
    obtain rfl : middle = [] := List.length_eq_zero_iff.mp h
    simp
  · rename_i h
    have hmax : max 1 middle.length = middle.length := by omega
    rw [show ("C" : Text) = ['C'] from rfl, type_control (by decide) _ rfl]
    simp [control, between, hmax]

theorem type_back (front back : Text) (c : Char) :
    (between (front ++ [c]) back).type "\x08" = between front (c :: back) := by
  have hback : Text.isPrintable '\x08' = false := by decide +kernel
  simp [type_cons, put, between, hback]

theorem type_newline (front back : Text) : (between front back).type "\r\n" = between [] [] := by
  have hreturn : Text.isPrintable '\r' = false := by decide +kernel
  have hfeed : Text.isPrintable '\n' = false := by decide +kernel
  simp [type_cons, put, between, hreturn, hfeed]

theorem type_erase (front back : Text) :
    (between front back).type "\r\x1b[2K" = between [] [] := by
  have hreturn : Text.isPrintable '\r' = false := by decide +kernel
  have hescape : Text.isPrintable '\x1b' = false := by decide +kernel
  simp [type_cons, put, control, between, hreturn, hescape]

end Screen

end PipeShell
