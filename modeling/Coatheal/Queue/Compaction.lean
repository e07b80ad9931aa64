import Coatheal.Library.OutStream
import Coatheal.Queue.Consistency

/-!
# Compaction through a buffered stream

The loop of a compaction outputs one line after the other, looks at the stream
after each, and closes it without looking. Seen from the queue this is the
compaction of the coarser model, whose outcomes are read off the flushes. The
file is replaced as a whole or stays exactly when the close loses nothing and a
failed rename does not cost the old file.
-/

namespace Coatheal.Queue

open Coatheal.Library Coatheal.Library.Text

/-- What the file system does during one compaction: the temporary file opens, the stream flushes in
the outputs and as it is closed, and the renames and the removal in between succeed. -/
structure StreamIo where
  opens : Bool
  puts : List Flush
  close : Flush
  renames : Bool
  removes : Bool
  renamesAgain : Bool
deriving DecidableEq, Repr

namespace TelemetryQueue

/-- The line of a frame with its line break. -/
def outputLine (frame : QueuedTelemetryFrame) : List Char := formatLine frame ++ ['\n']

/-- The lines of all pending frames, in the order they are output. -/
def outputLines (queue : TelemetryQueue) : List (List Char) := queue.backlog.frames.values.map outputLine

/-- `CompactLocked` with its stream. The result is the error, or nothing on success. -/
def compactStream (queue : TelemetryQueue) (io : StreamIo) : Option String × TelemetryQueue :=
  if !io.opens then (some "unable to write temporary queue file", queue)
  else
    let (stream, complete) := OutStream.putAll queue.outputLines io.puts .opened
    if !complete then (some "failed to persist queue frame", queue)
    else
      let temporary := stream.close io.close
      if io.renames then (none, queue.commit temporary)
      else
        let removed := if io.removes then { queue with file := none } else queue
        if io.renamesAgain then (none, removed.commit temporary)
        else (some "unable to commit queue file", removed)

/-- The number of bytes that wait in the stream as it is closed. -/
def unflushed (queue : TelemetryQueue) (io : StreamIo) : ℕ :=
  OutStream.waiting queue.outputLines io.puts 0

/-- The number of bytes that reach the file when the flush of the close fails. -/
def StreamIo.kept (io : StreamIo) (queue : TelemetryQueue) : ℕ :=
  (fileText queue.backlog.frames.values).length - queue.unflushed io + io.close.taken

/-- The outcomes as the coarser model has them. -/
def StreamIo.observed (io : StreamIo) (queue : TelemetryQueue) : CompactIo where
  opens := io.opens
  writes := decide (OutStream.Accepts queue.outputLines.length io.puts)
  closes := !io.close.fails
  kept := StreamIo.kept io queue
  renames := io.renames
  removes := io.removes
  renamesAgain := io.renamesAgain

/-- The lines one after the other are the text of the file. -/
theorem flatten_outputLines (queue : TelemetryQueue) :
    queue.outputLines.flatten = fileText queue.backlog.frames.values := by
  rw [fileText, putlines, outputLines, ← List.flatMap_def, List.flatMap_map]
  rfl

/-- The temporary file once every line was accepted and the stream was closed. -/
theorem close_putAll {queue : TelemetryQueue} {io : StreamIo}
    (hall : OutStream.Accepts queue.outputLines.length io.puts) :
    (OutStream.putAll queue.outputLines io.puts .opened).1.close io.close =
      queue.temporary (StreamIo.observed io queue) := by
  obtain ⟨hcontent, hlength⟩ := @OutStream.putAll_content _ _ _ OutStream.opened rfl hall
  have htext : (OutStream.putAll queue.outputLines io.puts .opened).1.disk ++
      (OutStream.putAll queue.outputLines io.puts .opened).1.buffer = fileText queue.backlog.frames.values :=
    hcontent.trans ((List.nil_append _).trans queue.flatten_outputLines)
  rw [OutStream.close_eq_take io.close htext, hlength, temporary]
  simp only [StreamIo.observed, StreamIo.kept, unflushed, OutStream.opened, List.length_nil]
  by_cases hfails : io.close.fails = true
  · simp [hfails]
  · simp [hfails]

/-- Without pending frames there is no output that could fail. -/
theorem accepts_of_empty {queue : TelemetryQueue} (h : queue.backlog.frames.entries.isEmpty = true)
    (io : StreamIo) : OutStream.Accepts queue.outputLines.length io.puts := by
  have hnothing : queue.outputLines = [] := by
    rw [outputLines, SortedMap.values, List.isEmpty_iff.mp h]
    rfl
  rw [hnothing]
  exact fun _ h => absurd h List.not_mem_nil

/-- The compaction with its stream is the compaction of the coarser model. -/
theorem compactStream_eq (queue : TelemetryQueue) (io : StreamIo) :
    queue.compactStream io = queue.compactLocked (StreamIo.observed io queue) := by
  have hcomplete := @OutStream.putAll_complete _ queue.outputLines io.puts OutStream.opened rfl
  unfold compactStream compactLocked
  cases hopens : io.opens with
  | false => simp [StreamIo.observed, hopens]
  | true =>
    by_cases hall : OutStream.Accepts queue.outputLines.length io.puts
    · have hclose := close_putAll hall
      rw [temporary] at hclose
      simp only [StreamIo.observed, hopens, hcomplete.mpr hall, hall, decide_true, hclose]
      simp
    · have hnone : (OutStream.putAll queue.outputLines io.puts .opened).2 = false :=
        Bool.eq_false_of_not_eq_true fun h => hall (hcomplete.mp h)
      have hsome : queue.backlog.frames.entries.isEmpty = false :=
        Bool.eq_false_of_not_eq_true fun hempty => hall (accepts_of_empty hempty io)
      simp [StreamIo.observed, hopens, hnone, hall, hsome]

/-- After a compaction the file is what it was or the lines of all pending frames, and it is what it was
when an error is reported. -/
structure AllOrNothing (queue : TelemetryQueue) (result : Option String × TelemetryQueue) : Prop where
  whole : result.2.file = queue.file ∨ result.2.file = some (fileText queue.backlog.frames.values)
  failed : result.1 ≠ none → result.2.file = queue.file

/-- A compaction that gets to the commit is harmless: when a rename succeeds, a failing close flushes all
the same whatever waits, or leaves what the file was; when both fail, the old file cannot be removed or
there is none. -/
def Harmless (queue : TelemetryQueue) (io : StreamIo) : Prop :=
  io.opens = true → OutStream.Accepts queue.outputLines.length io.puts →
    ((io.renames = true ∨ io.renamesAgain = true) → io.close.fails = true →
      queue.unflushed io ≤ io.close.taken ∨
        queue.file = some ((fileText queue.backlog.frames.values).take (StreamIo.kept io queue))) ∧
    (io.renames = false → io.renamesAgain = false → io.removes = true → queue.file = none)

/-- No more bytes wait than were output. -/
theorem unflushed_le {queue : TelemetryQueue} {io : StreamIo}
    (hall : OutStream.Accepts queue.outputLines.length io.puts) :
    queue.unflushed io ≤ (fileText queue.backlog.frames.values).length := by
  obtain ⟨hcontent, hlength⟩ := @OutStream.putAll_content _ _ _ OutStream.opened rfl hall
  have htotal := congrArg List.length hcontent
  rw [List.length_append, List.length_append, List.length_append, flatten_outputLines] at htotal
  simp only [OutStream.opened, List.length_nil] at htotal hlength
  unfold unflushed
  omega

/-- The temporary file is whole exactly when the close does not fail or flushes all that waits. -/
theorem temporary_eq_iff {queue : TelemetryQueue} {io : StreamIo}
    (hall : OutStream.Accepts queue.outputLines.length io.puts) :
    queue.temporary (StreamIo.observed io queue) = fileText queue.backlog.frames.values ↔
      (io.close.fails = true → queue.unflushed io ≤ io.close.taken) := by
  have hle := unflushed_le hall
  by_cases hfails : io.close.fails = true
  · have hkept : queue.temporary (StreamIo.observed io queue) =
        (fileText queue.backlog.frames.values).take (StreamIo.kept io queue) := by
      simp [temporary, StreamIo.observed, hfails]
    rw [hkept, StreamIo.kept]
    constructor
    · intro h _
      have hlength := congrArg List.length h
      rw [List.length_take] at hlength
      omega
    · intro h
      exact List.take_of_length_le (by have := h hfails; omega)
  · have hwhole : queue.temporary (StreamIo.observed io queue) = fileText queue.backlog.frames.values := by
      simp [temporary, StreamIo.observed, hfails]
    exact ⟨fun _ h => absurd h hfails, fun _ => hwhole⟩

/-- A committed temporary file is harmless when it is whole or what the file was. -/
theorem allOrNothing_commit_iff (queue current : TelemetryQueue) (temporary : List Char) :
    queue.AllOrNothing (none, current.commit temporary) ↔
      temporary = fileText queue.backlog.frames.values ∨ queue.file = some temporary := by
  constructor
  · rintro ⟨hfile | hfile, -⟩
    · exact Or.inr hfile.symm
    · exact Or.inl (Option.some.inj hfile)
  · rintro (hwhole | hsame)
    · exact ⟨Or.inr (congrArg some hwhole), fun h => absurd rfl h⟩
    · exact ⟨Or.inl hsame.symm, fun h => absurd rfl h⟩

/-- A compaction is all or nothing exactly when it is harmless. -/
theorem allOrNothing_iff_harmless (queue : TelemetryQueue) (io : StreamIo) :
    queue.AllOrNothing (queue.compactStream io) ↔ queue.Harmless io := by
  have hunchanged (error : String) : queue.AllOrNothing (some error, queue) := ⟨Or.inl rfl, fun _ => rfl⟩
  rw [compactStream_eq]
  unfold Harmless
  by_cases hopens : io.opens = true
  case neg =>
    have hresult : queue.compactLocked (StreamIo.observed io queue) =
        (some "unable to write temporary queue file", queue) := by
      simp [compactLocked, StreamIo.observed, hopens]
    rw [hresult]
    exact ⟨fun _ h => absurd h hopens, fun _ => hunchanged _⟩
  by_cases hall : OutStream.Accepts queue.outputLines.length io.puts
  case neg =>
    have hsome : queue.backlog.frames.entries.isEmpty = false :=
      Bool.eq_false_of_not_eq_true fun hempty => hall (accepts_of_empty hempty io)
    have hresult : queue.compactLocked (StreamIo.observed io queue) =
        (some "failed to persist queue frame", queue) := by
      simp [compactLocked, StreamIo.observed, hopens, hall, hsome]
    rw [hresult]
    exact ⟨fun _ _ h => absurd h hall, fun _ => hunchanged _⟩
  have hkept (hfails : io.close.fails = true) : queue.temporary (StreamIo.observed io queue) =
      (fileText queue.backlog.frames.values).take (StreamIo.kept io queue) := by
    simp [temporary, StreamIo.observed, hfails]
  have hcommit : (queue.temporary (StreamIo.observed io queue) = fileText queue.backlog.frames.values ∨
      queue.file = some (queue.temporary (StreamIo.observed io queue))) ↔
        (io.close.fails = true → queue.unflushed io ≤ io.close.taken ∨
          queue.file = some ((fileText queue.backlog.frames.values).take (StreamIo.kept io queue))) := by
    rw [temporary_eq_iff hall]
    by_cases hfails : io.close.fails = true
    · simp only [hfails, forall_const, hkept hfails]
    · exact iff_of_true (Or.inl fun h => absurd h hfails) fun h => absurd h hfails
  have hresult : queue.compactLocked (StreamIo.observed io queue) =
      if io.renames then (none, queue.commit (queue.temporary (StreamIo.observed io queue)))
      else if io.renamesAgain then
        (none, (if io.removes then { queue with file := none } else queue).commit
          (queue.temporary (StreamIo.observed io queue)))
      else (some "unable to commit queue file", if io.removes then { queue with file := none } else queue) := by
    simp [compactLocked, temporary, StreamIo.observed, hopens, hall]
  rw [hresult]
  simp only [hopens, hall, forall_const]
  by_cases hrenames : io.renames = true
  · simp only [hrenames, if_true, true_or, forall_const, Bool.true_eq_false, false_implies, and_true]
    exact (allOrNothing_commit_iff queue queue _).trans hcommit
  by_cases hagain : io.renamesAgain = true
  · simp only [hrenames, hagain, if_true, or_true, forall_const, Bool.true_eq_false, false_implies,
      and_true, Bool.false_eq_true, if_false]
    exact (allOrNothing_commit_iff queue _ _).trans hcommit
  · have hneither : io.renames = false ∧ io.renamesAgain = false :=
      ⟨Bool.eq_false_of_not_eq_true hrenames, Bool.eq_false_of_not_eq_true hagain⟩
    simp only [hneither, Bool.false_eq_true, or_self, false_implies, true_and, forall_const, if_false]
    by_cases hremoves : io.removes = true
    · simp only [hremoves, if_true, forall_const]
      constructor
      · exact fun h => (h.failed (by simp)).symm
      · intro hnone
        exact ⟨Or.inl hnone.symm, fun _ => hnone.symm⟩
    · simp only [hremoves, Bool.false_eq_true, if_false, false_implies, iff_true]
      exact hunchanged _

/-- Two frames are pending, and the disk is full when the stream is closed: four bytes are written. -/
def fullDisk : StreamIo := ⟨true, [], ⟨4, true⟩, true, true, true⟩

/-- The queue with two frames pending, both in its file. -/
def twoPending : TelemetryQueue :=
  run step (new sampleConfig none)
    [.restart 1000 .fine, .enqueue 1000 1 (sampleFrame 1 "DATA,1") .fine,
      .enqueue 1001 2 (sampleFrame 2 "DATA,2") .fine]

/-- The first four bytes take the place of both lines. -/
theorem fullDisk_not_allOrNothing : ¬ twoPending.AllOrNothing (twoPending.compactStream fullDisk) := by
  intro h
  exact absurd h.whole (by decide +kernel)

end TelemetryQueue

end Coatheal.Queue
