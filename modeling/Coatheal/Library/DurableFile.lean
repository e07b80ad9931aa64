import Mathlib.Data.List.Infix

/-!
# Files that survive a power cut as far as they were synced

Text is appended to a file, and a sync makes all that is in it durable. A power cut
leaves what was durable and, behind it, anything: some of what was appended since,
or blocks that were never written. What is durable stays so, at the beginning of the
file.
-/

namespace Coatheal.Library

variable {α : Type*}

/-- A file, and how much of it is durable. -/
structure DurableFile (α : Type*) where
  content : List α
  durable : ℕ
  durable_le : durable ≤ content.length

namespace DurableFile

/-- What is durable. -/
def settled (f : DurableFile α) : List α := f.content.take f.durable

/-- Append a text. -/
def append (f : DurableFile α) (text : List α) : DurableFile α :=
  ⟨f.content ++ text, f.durable, f.durable_le.trans (by simp)⟩

/-- Make all of the file durable. -/
def sync (f : DurableFile α) : DurableFile α := ⟨f.content, f.content.length, le_rfl⟩

/-- The power is cut. -/
def powerCut (f : DurableFile α) (behind : List α) : DurableFile α :=
  ⟨f.settled ++ behind, f.durable, by simp [settled, f.durable_le]⟩

/-- What was durable in a file is durable in a later one. -/
def Continues (f later : DurableFile α) : Prop := f.settled <+: later.settled

/-- What is durable is the beginning of the file. -/
theorem settled_prefix (f : DurableFile α) : f.settled <+: f.content := List.take_prefix _ _

/-- After a sync all of the file is durable. -/
@[simp]
theorem settled_sync (f : DurableFile α) : f.sync.settled = f.content := List.take_length

/-- Appending changes nothing of what is durable. -/
@[simp]
theorem settled_append (f : DurableFile α) (text : List α) : (f.append text).settled = f.settled :=
  List.take_append_of_le_length f.durable_le

/-- A power cut changes nothing of what is durable. -/
@[simp]
theorem settled_powerCut (f : DurableFile α) (behind : List α) : (f.powerCut behind).settled = f.settled := by
  have hlength : f.settled.length = f.durable := List.length_take_of_le f.durable_le
  exact List.take_left' hlength

/-- A file continues itself. -/
theorem Continues.refl (f : DurableFile α) : f.Continues f := List.prefix_rfl

/-- A file that continues a later one continues the first. -/
theorem Continues.trans {f g h : DurableFile α} (hfg : f.Continues g) (hgh : g.Continues h) : f.Continues h :=
  List.IsPrefix.trans hfg hgh

/-- A synced file continues the file. -/
theorem continues_sync (f : DurableFile α) : f.Continues f.sync := by
  unfold Continues
  rw [settled_sync]
  exact f.settled_prefix

/-- A file with the same durable part continues the file. -/
theorem continues_of_settled_eq {f later : DurableFile α} (h : later.settled = f.settled) : f.Continues later := by
  unfold Continues
  rw [h]

/-- All of a synced file is at the beginning of every later one. -/
theorem Continues.content_prefix {f later : DurableFile α} (h : f.sync.Continues later) : f.content <+: later.content := by
  unfold Continues at h
  rw [settled_sync] at h
  exact h.trans later.settled_prefix

end DurableFile

end Coatheal.Library
