import Mathlib.Data.List.Basic

/-!
# Buffered output

A stream accepts what is put into it and hands some of it to the file now and
then; what it has not handed over waits in its buffer. A failure shows in the
state of the stream, except one that happens as the stream is closed: nobody
looks at it any more, and the file keeps what had reached it.
-/

namespace Coatheal.Library

variable {α : Type*}

/-- What happens when a stream hands bytes over: so many of the waiting ones are taken, and it fails or
not. -/
structure Flush where
  taken : ℕ
  fails : Bool
deriving DecidableEq, Repr

/-- A stream on a file that was emptied as it was opened. -/
structure OutStream (α : Type*) where
  disk : List α
  buffer : List α
  good : Bool

namespace OutStream

/-- The stream as it is opened. -/
def opened : OutStream α := ⟨[], [], true⟩

/-- Output some text. A stream that is not good takes nothing. -/
def put (s : OutStream α) (text : List α) (io : Flush) : OutStream α :=
  if s.good then
    ⟨s.disk ++ (s.buffer ++ text).take io.taken, (s.buffer ++ text).drop io.taken, !io.fails⟩
  else s

/-- The file after the stream was closed: all of the buffer follows, or only what a failing flush took. -/
def close (s : OutStream α) (io : Flush) : List α :=
  s.disk ++ if io.fails then s.buffer.take io.taken else s.buffer

/-- Output texts until one fails; whether all were accepted. -/
def putAll : List (List α) → List Flush → OutStream α → OutStream α × Bool
  | [], _, s => (s, true)
  | text :: rest, ios, s =>
    let written := s.put text (ios.headD ⟨0, false⟩)
    if written.good then putAll rest ios.tail written else (written, false)

/-- The number of bytes that wait after some outputs, beginning with those that waited before. -/
def waiting : List (List α) → List Flush → ℕ → ℕ
  | [], _, before => before
  | text :: rest, ios, before => waiting rest ios.tail (before + text.length - (ios.headD ⟨0, false⟩).taken)

/-- None of the first outputs, so many of them, fails. -/
def Accepts (count : ℕ) (ios : List Flush) : Prop := ∀ io ∈ ios.take count, io.fails = false

instance (count : ℕ) (ios : List Flush) : Decidable (Accepts count ios) :=
  inferInstanceAs (Decidable (∀ io ∈ ios.take count, io.fails = false))

/-- Nothing that was accepted is lost before the close. -/
theorem put_content {s : OutStream α} (h : s.good = true) (text : List α) (io : Flush) :
    (s.put text io).disk ++ (s.put text io).buffer = s.disk ++ s.buffer ++ text := by
  rw [put, if_pos h, List.append_assoc, List.take_append_drop, List.append_assoc]

/-- What waits after an output. -/
theorem put_buffer_length {s : OutStream α} (h : s.good = true) (text : List α) (io : Flush) :
    (s.put text io).buffer.length = s.buffer.length + text.length - io.taken := by
  rw [put, if_pos h, List.length_drop, List.length_append]

/-- A good stream accepts an output exactly when it does not fail. -/
theorem put_good {s : OutStream α} (h : s.good = true) (text : List α) (io : Flush) :
    (s.put text io).good = !io.fails := by
  rw [put, if_pos h]

/-- The first output is accepted, and so are the others. -/
theorem accepts_succ {count : ℕ} {ios : List Flush} :
    Accepts (count + 1) ios ↔ (ios.headD ⟨0, false⟩).fails = false ∧ Accepts count ios.tail := by
  cases ios with
  | nil => simp [Accepts]
  | cons io rest => simp [Accepts]

/-- All texts are accepted exactly when none of their outputs fails. -/
theorem putAll_complete {texts : List (List α)} {ios : List Flush} {s : OutStream α} (h : s.good = true) :
    (putAll texts ios s).2 = true ↔ Accepts texts.length ios := by
  induction texts generalizing ios s with
  | nil => simp [putAll, Accepts]
  | cons text rest ih =>
    have hgood := put_good h text (ios.headD ⟨0, false⟩)
    rw [List.length_cons, accepts_succ]
    cases hfails : (ios.headD ⟨0, false⟩).fails with
    | true =>
      rw [hfails, Bool.not_true] at hgood
      simp only [putAll, hgood, Bool.false_eq_true, if_false, Bool.true_eq_false, false_and]
    | false =>
      rw [hfails, Bool.not_false] at hgood
      simp only [putAll, hgood, if_true, true_and]
      exact ih hgood

/-- After outputs that were all accepted the file and the buffer hold all the texts, and so many bytes
wait. -/
theorem putAll_content {texts : List (List α)} {ios : List Flush} {s : OutStream α} (h : s.good = true)
    (hall : Accepts texts.length ios) :
    (putAll texts ios s).1.disk ++ (putAll texts ios s).1.buffer = s.disk ++ s.buffer ++ texts.flatten ∧
      (putAll texts ios s).1.buffer.length = waiting texts ios s.buffer.length := by
  induction texts generalizing ios s with
  | nil => simp [putAll, waiting]
  | cons text rest ih =>
    rw [List.length_cons, accepts_succ] at hall
    have hgood : (s.put text (ios.headD ⟨0, false⟩)).good = true := by
      rw [put_good h, hall.1]
      rfl
    obtain ⟨hcontent, hlength⟩ := ih hgood hall.2
    rw [put_content h] at hcontent
    rw [put_buffer_length h] at hlength
    simp only [putAll, hgood, if_true]
    refine ⟨?_, hlength⟩
    rw [hcontent, List.flatten_cons, List.append_assoc]

/-- The file after the close is all that was accepted, or lacks what a failing flush left. -/
theorem close_eq_take {s : OutStream α} (io : Flush) {text : List α} (htext : s.disk ++ s.buffer = text) :
    s.close io =
      if io.fails then text.take (text.length - s.buffer.length + io.taken) else text := by
  have hlength : text.length - s.buffer.length = s.disk.length := by
    rw [← htext, List.length_append, Nat.add_sub_cancel]
  unfold close
  split
  · rw [hlength, ← htext, List.take_length_add_append]
  · exact htext

end OutStream

end Coatheal.Library
