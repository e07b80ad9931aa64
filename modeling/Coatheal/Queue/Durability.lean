import Coatheal.Queue.Consistency
import Mathlib.Data.List.Perm.Basic

/-!
# The queue file over whole runs

While persistence is on, the queue file holds the lines of the pending frames
in their order and, between them, those of the frames removed since the last
compaction. Reading the file gives all pending frames back. This holds for as
long as no frame that comes in is written twice, by the compaction that regains
persistence and by the append after it, no compaction loses what it wrote when
it closes its file, and no file is left unread.
-/

namespace Coatheal.Queue

open Coatheal.Library

namespace Backlog

variable {backlog : Backlog}

/-- Some lines are those of the pending frames in their order and of the retired ones. -/
structure Written (backlog : Backlog) (lines : List QueuedTelemetryFrame) : Prop where
  inOrder : backlog.frames.values.Sublist lines
  perm : lines.Perm (backlog.frames.values ++ backlog.retired)

/-- The pending and the retired frames have lines that are read back. -/
def Sound (backlog : Backlog) : Prop :=
  ∀ frame ∈ backlog.frames.values ++ backlog.retired, frame.WellFormed

/-- Removing a frame retires its line. -/
theorem removeLocked_perm {index : ℕ} {frame : QueuedTelemetryFrame}
    (h : (index, frame) ∈ backlog.frames) :
    (backlog.frames.values ++ backlog.retired).Perm
      ((backlog.removeLocked index).frames.values ++ (backlog.removeLocked index).retired) := by
  obtain ⟨-, -, -, -, -, -, hretired⟩ := removeLocked_spec h
  rw [hretired, ← List.append_assoc]
  exact ((removeLocked_values h).2.append_right _).trans (List.perm_append_singleton _ _).symm

/-- Removing a position keeps what is written. -/
theorem removeLocked_written {lines : List QueuedTelemetryFrame} (h : backlog.Written lines)
    (index : ℕ) : (backlog.removeLocked index).Written lines := by
  by_cases hin : index ∈ backlog.pending
  · obtain ⟨frame, hmem⟩ := hin
    exact ⟨(removeLocked_values hmem).1.trans h.inOrder, h.perm.trans (removeLocked_perm hmem)⟩
  · rwa [removeLocked_of_notMem hin]

/-- Removing a position keeps the lines readable. -/
theorem removeLocked_sound (h : backlog.Sound) (index : ℕ) : (backlog.removeLocked index).Sound := by
  by_cases hin : index ∈ backlog.pending
  · obtain ⟨frame, hmem⟩ := hin
    intro found hfound
    exact h found ((removeLocked_perm hmem).mem_iff.mpr hfound)
  · rwa [removeLocked_of_notMem hin]

/-- Inserting a frame waits for one more line. -/
theorem insertLocked_written {lines : List QueuedTelemetryFrame} (h : backlog.Written lines)
    (harranged : backlog.Arranged) (frame : QueuedTelemetryFrame) :
    (backlog.insertLocked frame).Written (lines ++ [{ frame with index := backlog.nextIndex }]) := by
  obtain ⟨-, -, -, -, -, -, hretired⟩ := insertLocked_spec backlog frame
  constructor
  · rw [insertLocked_values harranged]
    exact h.inOrder.append (List.Sublist.refl _)
  · rw [insertLocked_values harranged, hretired, List.append_assoc]
    refine (h.perm.append_right _).trans ?_
    rw [List.append_assoc]
    exact (List.perm_append_comm).append_left _

/-- Inserting a readable frame keeps the lines readable. -/
theorem insertLocked_sound {frame : QueuedTelemetryFrame} (h : backlog.Sound) (harranged : backlog.Arranged)
    (hframe : frame.WellFormed) : (backlog.insertLocked frame).Sound := by
  obtain ⟨-, -, -, -, -, -, hretired⟩ := insertLocked_spec backlog frame
  intro found hfound
  rw [insertLocked_values harranged, hretired] at hfound
  rcases List.mem_append.mp hfound with hvalue | hold
  · rcases List.mem_append.mp hvalue with hpending | hnew
    · exact h found (List.mem_append_left _ hpending)
    · rw [List.mem_singleton.mp hnew]
      exact ⟨hframe.1, hframe.2, hframe.3, hframe.4, hframe.5⟩
  · exact h found (List.mem_append_right _ hold)

/-- Removals keep what is written. -/
theorem Removed.written {before after : Backlog} {lines : List QueuedTelemetryFrame}
    (h : Removed before after) (hbefore : before.Written lines) : after.Written lines :=
  @Removed.keep (fun current => current.Written lines) before after h
    (fun _ index hcurrent => removeLocked_written hcurrent index) hbefore

/-- Removals keep the lines readable. -/
theorem Removed.sound {before after : Backlog} (h : Removed before after) (hbefore : before.Sound) :
    after.Sound :=
  h.keep (fun _ index hcurrent => removeLocked_sound hcurrent index) hbefore

/-- Dropping the count of dead lines keeps the lines readable. -/
theorem Settled.sound {before after : Backlog} (h : before.Settled after) (hbefore : before.Sound) :
    after.Sound := by
  rcases h with rfl | rfl
  · exact hbefore
  · intro frame hframe
    refine hbefore frame (List.mem_append_left _ ?_)
    simpa [compacted] using hframe

/-- Once the file is rewritten, its lines are the pending frames'. -/
theorem compacted_written (backlog : Backlog) : backlog.compacted.Written backlog.frames.values :=
  ⟨List.Sublist.refl _, by simp [compacted]⟩

/-- Frames that are inserted are pending in their order behind those that were. -/
theorem insertAll_contents (h : backlog.Arranged) (frames : List QueuedTelemetryFrame) :
    (backlog.insertAll frames).frames.values.map QueuedTelemetryFrame.content =
      backlog.frames.values.map QueuedTelemetryFrame.content ++ frames.map QueuedTelemetryFrame.content := by
  induction frames generalizing backlog with
  | nil => exact (List.append_nil _).symm
  | cons frame rest ih =>
    have hrest := ih (insertLocked_arranged h frame)
    rw [insertLocked_values h, List.map_append, List.append_assoc] at hrest
    exact hrest

/-- Inserting readable frames keeps the lines readable. -/
theorem insertAll_sound {frames : List QueuedTelemetryFrame} (h : backlog.Sound) (harranged : backlog.Arranged)
    (hframes : ∀ frame ∈ frames, frame.WellFormed) : (backlog.insertAll frames).Sound := by
  induction frames generalizing backlog with
  | nil => exact h
  | cons frame rest ih =>
    exact ih (insertLocked_sound h harranged (hframes frame List.mem_cons_self))
      (insertLocked_arranged harranged frame) fun other hother => hframes other (List.mem_cons_of_mem _ hother)

/-- An empty backlog has no line that could not be read. -/
theorem empty_sound : Sound empty := fun _ h => absurd h List.not_mem_nil

end Backlog

/-- Frames that are taken from a file have lines that are read back. -/
theorem loadedFrames_wellFormed {retentionS now : ℤ} {text : List Char} {frame : QueuedTelemetryFrame}
    (h : frame ∈ loadedFrames retentionS now text) : frame.WellFormed :=
  (parsedFrames_wellFormed (List.mem_of_mem_filter h)).1

namespace TelemetryQueue

variable {queue after : TelemetryQueue}

/-- The frames that a new process would load from the file. -/
def reread (queue : TelemetryQueue) (now : ℤ) (io : InitializeIo) : List QueuedTelemetryFrame :=
  ((new queue.config queue.file).initializeQueue now io).2.backlog.frames.values.map
    QueuedTelemetryFrame.content

/-- While persistence is on, a process that reads the file while no pending frame is past its
retention age gets all pending frames, once and in their order, and besides them only frames removed
since the last compaction; and the file is as long as the two byte counts say. -/
structure Durable (queue : TelemetryQueue) : Prop where
  rereads : queue.persistenceEnabled = true → ∀ now io, io.createDir = true → io.readOpens = true →
    (∀ frame ∈ queue.backlog.frames.values, Backlog.expired queue.config.retentionS now frame = false) →
    let pending := queue.backlog.frames.values.map QueuedTelemetryFrame.content
    pending.Sublist (queue.reread now io) ∧
      ∃ extra, extra.Sublist (queue.backlog.retired.map QueuedTelemetryFrame.content) ∧
        (queue.reread now io).Perm (pending ++ extra)
  length_eq : queue.persistenceEnabled = true →
    (queue.file.getD []).length = queue.backlog.liveBytes + queue.backlog.deadBytes

/-- The file is made of the lines of the pending and the retired frames while persistence is on. -/
structure Filed (queue : TelemetryQueue) : Prop where
  arranged : queue.backlog.Arranged
  sound : queue.backlog.Sound
  written : queue.persistenceEnabled = true →
    ∃ lines, queue.file.getD [] = fileText lines ∧ queue.backlog.Written lines

/-- The frame that comes in regains persistence and is appended to the file it was just written to. -/
def Doubles (queue : TelemetryQueue) (now steady : ℤ) (frame : QueuedTelemetryFrame) (io : OperationIo) : Prop :=
  queue.persistenceEnabled = false ∧
    (queue.retried now steady frame io).persistenceEnabled = true ∧ io.append.opens = true ∧ io.append.flushes = true

/-- Doubling can be told. -/
instance (queue : TelemetryQueue) (now steady : ℤ) (frame : QueuedTelemetryFrame) (io : OperationIo) :
    Decidable (queue.Doubles now steady frame io) :=
  inferInstanceAs (Decidable (_ ∧ _ ∧ _ ∧ _))

/-- A file with something in it that is not read is not appended to. -/
def ReadsFile (queue : TelemetryQueue) (io : InitializeIo) : Prop :=
  io.createDir = true → io.createOpens = true → io.readOpens = false → queue.file.getD [] = []

/-- Reading can be told. -/
instance (queue : TelemetryQueue) (io : InitializeIo) : Decidable (queue.ReadsFile io) :=
  inferInstanceAs (Decidable (_ → _ → _ → _))

/-- The file is read when it is there, no compaction loses bytes as it closes its file, frames that
come in fit on a line, and none is written twice. -/
def KeepsFile (queue : TelemetryQueue) : QueueEvent → Prop
  | .restart _ io => queue.ReadsFile io ∧ io.compact.closes = true
  | .reload _ io => queue.ReadsFile io ∧ io.compact.closes = true
  | .enqueue now steady frame io =>
    frame.WellFormed ∧ io.compact.closes = true ∧ ¬ queue.Doubles now steady frame io
  | .acknowledge _ _ _ io => io.retry.compact.closes = true ∧ io.compact.closes = true
  | .acknowledgeExact _ _ io => io.retry.compact.closes = true ∧ io.compact.closes = true

/-- Keeping the file can be told. -/
instance (queue : TelemetryQueue) : (event : QueueEvent) → Decidable (queue.KeepsFile event)
  | .restart _ _ => inferInstanceAs (Decidable (_ ∧ _))
  | .reload _ _ => inferInstanceAs (Decidable (_ ∧ _))
  | .enqueue _ _ _ _ => inferInstanceAs (Decidable (_ ∧ _ ∧ _))
  | .acknowledge _ _ _ _ => inferInstanceAs (Decidable (_ ∧ _))
  | .acknowledgeExact _ _ _ => inferInstanceAs (Decidable (_ ∧ _))

/-- A compaction that loses nothing leaves a file of the pending frames' lines, or ends
persistence. -/
theorem Compaction.filed {io : CompactIo} (h : Compaction queue io after)
    (harranged : queue.backlog.Arranged) (hsound : queue.backlog.Sound) (hcloses : io.closes = true) :
    after.Filed := by
  cases h with
  | done =>
    have hsettled : queue.backlog.Settled queue.backlog.compacted := Or.inr rfl
    refine ⟨hsettled.arranged harranged, hsettled.sound hsound, fun _ => ?_⟩
    refine ⟨queue.backlog.frames.values, ?_, queue.backlog.compacted_written⟩
    rw [commit, temporary, if_pos hcloses, Option.getD_some]
  | failed file hfile => exact ⟨harranged, hsound, fun h => absurd h (by simp)⟩

/-- A compaction that may be put off keeps the file. -/
theorem maybeCompactLocked_filed {io : CompactIo} (h : queue.Filed) (hcloses : io.closes = true) :
    (queue.maybeCompactLocked io).Filed := by
  rcases maybeCompactLocked_cases queue io with hsame | ⟨-, hcompaction⟩
  · rwa [hsame]
  · exact hcompaction.filed h.arranged h.sound hcloses

/-- Trying persistence again keeps the file. -/
theorem retryPersistenceLocked_filed {io : RetryIo} (h : queue.Filed) (now : ℤ)
    (hcloses : io.compact.closes = true) : (queue.retryPersistenceLocked now io).Filed := by
  rcases retryPersistenceLocked_cases queue now io with hsame | ⟨hoff, next, hwaiting | hcompaction⟩
  · rwa [hsame]
  · rw [hwaiting]
    exact ⟨h.arranged, h.sound, h.written⟩
  · exact hcompaction.filed h.arranged h.sound hcloses

/-- Removing frames keeps the file, whatever is compacted after it. -/
theorem removed_filed {current : Backlog} (h : queue.Filed)
    (hremoved : Backlog.Removed queue.backlog current) (steady : ℤ) {io : OperationIo}
    (hretry : io.retry.compact.closes = true) (hcompact : io.compact.closes = true) :
    ({ queue with backlog := current }.settle steady io).Filed := by
  have hcurrent : Filed { queue with backlog := current } := by
    refine ⟨hremoved.arranged h.arranged, hremoved.sound h.sound, fun henabled => ?_⟩
    obtain ⟨lines, hfile, hwritten⟩ := h.written henabled
    exact ⟨lines, hfile, hremoved.written hwritten⟩
  exact maybeCompactLocked_filed (retryPersistenceLocked_filed hcurrent steady hretry) hcompact

/-- Initializing keeps the file. -/
theorem Initialized.filed {now : ℤ} {io : InitializeIo} (h : Initialized queue now io after)
    (hfiled : queue.backlog.Arranged ∧ queue.backlog.Sound) (hread : queue.ReadsFile io)
    (hcloses : io.compact.closes = true) : after.Filed := by
  cases h with
  | noDirectory hdir => exact ⟨hfiled.1, hfiled.2, fun h => absurd h (by simp)⟩
  | notCreated hdir hcreate hmissing =>
    exact ⟨Backlog.empty_arranged, Backlog.empty_sound, fun h => absurd h (by simp)⟩
  | created hdir hcreate hmissing =>
    refine ⟨Backlog.empty_arranged, Backlog.empty_sound, fun _ => ⟨[], ?_, ?_⟩⟩
    · rw [Option.getD_some]
      rcases hmissing with hunread | hnone
      · exact hread hdir hcreate hunread
      · rw [hnone]
        rfl
    · exact ⟨List.Sublist.refl _, List.Perm.refl _⟩
  | loaded after text hdir hopens hfile hcompaction =>
    exact hcompaction.filed (Backlog.insertAll_arranged Backlog.empty_arranged _)
      (Backlog.insertAll_sound Backlog.empty_sound Backlog.empty_arranged fun _ => loadedFrames_wellFormed)
      hcloses

/-- Appending the line of a frame that was inserted keeps the file. -/
theorem enqueue_filed {now steady : ℤ} {frame : QueuedTelemetryFrame} {io : OperationIo} (h : queue.Filed)
    (hframe : frame.WellFormed) (hcloses : io.compact.closes = true)
    (hdoubles : ¬ queue.Doubles now steady frame io) : (queue.enqueue now steady frame io).2.Filed := by
  have hremoved := Backlog.pruneLocked_removed (queue.backlog.insertLocked frame) queue.config.retentionS
    queue.config.maxBytes now
  have hsettled : (queue.store now frame).backlog.Settled (queue.retried now steady frame io).backlog :=
    retryPersistenceLocked_settled (queue.store now frame) steady io.retry
  have harranged : (queue.retried now steady frame io).backlog.Arranged :=
    hsettled.arranged (hremoved.arranged (Backlog.insertLocked_arranged h.arranged frame))
  have hsound : (queue.retried now steady frame io).backlog.Sound :=
    hsettled.sound (hremoved.sound (Backlog.insertLocked_sound h.sound h.arranged hframe))
  have hcases := enqueue_cases queue now steady frame io
  generalize (queue.enqueue now steady frame io).2 = after at hcases ⊢
  generalize hretried : queue.retried now steady frame io = retried at hcases harranged hsound
  cases hcases with
  | memoryOnly hoff => exact ⟨harranged, hsound, fun hon => absurd (hoff.symm.trans hon) (by simp)⟩
  | notOpened hon hopens => exact ⟨harranged, hsound, fun h => absurd h (by simp)⟩
  | torn hon hopens hflushes => exact ⟨harranged, hsound, fun h => absurd h (by simp)⟩
  | whole hon hopens hflushes =>
    refine maybeCompactLocked_filed ⟨harranged, hsound, fun _ => ?_⟩ hcloses
    have henabled : queue.persistenceEnabled = true := by
      by_contra hoff
      exact hdoubles ⟨Bool.eq_false_iff.mpr hoff, hretried ▸ hon, hopens, hflushes⟩
    have hsame : retried = queue.store now frame := by
      rw [← hretried]
      rcases retryPersistenceLocked_cases (queue.store now frame) steady io.retry with hsame | ⟨hoff, -⟩
      · exact hsame
      · exact absurd (hoff.symm.trans henabled) (by simp)
    obtain ⟨lines, hfile, hwritten⟩ := h.written henabled
    refine ⟨lines ++ [{ frame with index := queue.backlog.nextIndex }], ?_, ?_⟩
    · have htext : (queue.store now frame).file.getD [] = fileText lines := hfile
      rw [hsame, extend, Option.getD_some, htext, fileText_append]
      rfl
    · rw [hsame]
      exact hremoved.written (Backlog.insertLocked_written hwritten h.arranged frame)

/-- An event that keeps the file keeps it a file of the right lines. -/
theorem step_filed (queue : TelemetryQueue) (event : QueueEvent) (h : queue.Filed)
    (hkeeps : queue.KeepsFile event) : (queue.step event).Filed := by
  cases event with
  | restart now io =>
    exact (initializeQueue_cases (new queue.config queue.file) now io).filed
      ⟨Backlog.empty_arranged, Backlog.empty_sound⟩ hkeeps.1 hkeeps.2
  | reload now io =>
    exact (initializeQueue_cases queue now io).filed ⟨h.arranged, h.sound⟩ hkeeps.1 hkeeps.2
  | enqueue now steady frame io => exact enqueue_filed h hkeeps.1 hkeeps.2.1 hkeeps.2.2
  | acknowledge steady sessionId seq io =>
    unfold step acknowledge
    dsimp only
    split
    · exact h
    · exact removed_filed h (Backlog.foldl_removed _ _) steady hkeeps.1 hkeeps.2
  | acknowledgeExact steady frame io =>
    unfold step acknowledgeExact
    dsimp only
    split
    · exact h
    case h_2 index hindex =>
      exact removed_filed h (Backlog.Removed.refl.remove index) steady hkeeps.1 hkeeps.2

/-- A new process gets what the file holds. -/
theorem reread_eq (queue : TelemetryQueue) {now : ℤ} {io : InitializeIo} (hdir : io.createDir = true)
    (hopens : io.readOpens = true) :
    queue.reread now io =
      (loadedFrames queue.config.retentionS now (queue.file.getD [])).map QueuedTelemetryFrame.content := by
  have hloaded : ∀ frames, (Backlog.empty.insertAll frames).frames.values.map QueuedTelemetryFrame.content =
      frames.map QueuedTelemetryFrame.content := Backlog.insertAll_contents Backlog.empty_arranged
  unfold reread
  generalize hafter : ((new queue.config queue.file).initializeQueue now io).2 = after
  have hcases := initializeQueue_cases (new queue.config queue.file) now io
  rw [hafter] at hcases
  have hempty : queue.file = none → loadedFrames queue.config.retentionS now (queue.file.getD []) = [] := by
    intro hnone
    rw [hnone]
    rfl
  cases hcases with
  | noDirectory hno => exact absurd (hno.symm.trans hdir) (by simp)
  | notCreated _ _ hmissing =>
    rcases hmissing with hunread | hnone
    · exact absurd (hunread.symm.trans hopens) (by simp)
    · rw [hempty hnone]
      rfl
  | created _ _ hmissing =>
    rcases hmissing with hunread | hnone
    · exact absurd (hunread.symm.trans hopens) (by simp)
    · rw [hempty hnone]
      rfl
  | loaded _ text _ _ hfile hcompaction =>
    have hframes : after.backlog.frames.values =
        (Backlog.empty.insertAll (loadedFrames queue.config.retentionS now text)).frames.values := by
      rcases hcompaction.settled with hsame | hsame
      · rw [hsame]
        rfl
      · rw [hsame]
        rfl
    have htext : queue.file = some text := hfile
    rw [hframes, hloaded, htext, Option.getD_some]

/-- A file of the right lines gives the pending frames back. -/
theorem Filed.durable (h : queue.Filed) : queue.Durable := by
  constructor
  · intro henabled now io hdir hopens hrecent
    obtain ⟨lines, hfile, hwritten⟩ := h.written henabled
    have hreadable : ∀ frame ∈ lines, frame.WellFormed := fun frame hframe =>
      h.sound frame (hwritten.perm.mem_iff.mp hframe)
    let recent := fun frame : QueuedTelemetryFrame => !Backlog.expired queue.config.retentionS now frame
    have hreread : queue.reread now io = (lines.filter recent).map QueuedTelemetryFrame.content := by
      rw [reread_eq queue hdir hopens, hfile, loadedFrames, parsedFrames_fileText hreadable, List.filter_map,
        List.map_map]
      rfl
    have hpending : queue.backlog.frames.values.filter recent = queue.backlog.frames.values :=
      List.filter_eq_self.mpr fun frame hframe => by simp [recent, hrecent frame hframe]
    rw [hreread]
    refine ⟨?_, (queue.backlog.retired.filter recent).map QueuedTelemetryFrame.content,
      List.filter_sublist.map _, ?_⟩
    · have hsublist := hwritten.inOrder.filter recent
      rw [hpending] at hsublist
      exact hsublist.map _
    · have hperm := hwritten.perm.filter recent
      rw [List.filter_append, hpending] at hperm
      have hmapped := hperm.map QueuedTelemetryFrame.content
      rwa [List.map_append] at hmapped
  · intro henabled
    obtain ⟨lines, hfile, hwritten⟩ := h.written henabled
    calc (queue.file.getD []).length
        = (lines.map lineBytes).sum := by rw [hfile, length_fileText]
      _ = ((queue.backlog.frames.values ++ queue.backlog.retired).map lineBytes).sum :=
          (hwritten.perm.map lineBytes).sum_nat
      _ = queue.backlog.liveBytes + queue.backlog.deadBytes := by
          rw [List.map_append, List.sum_append, h.arranged.live_eq, h.arranged.dead_eq]

/-- A new queue on a disk without a queue file has nothing to file. -/
theorem new_filed (config : QueueConfig) : (new config none).Filed :=
  ⟨Backlog.empty_arranged, Backlog.empty_sound, fun _ => ⟨[], rfl, List.Sublist.refl _, List.Perm.refl _⟩⟩

/-- In every run that keeps the file, the file gives the pending frames back in every state. -/
theorem durable_of_keepsFile {config : QueueConfig} {events : List QueueEvent}
    (h : Meets step KeepsFile (new config none) events) : Holds step Durable (new config none) events :=
  holds_of_meets step_filed (fun _ hfiled => hfiled.durable) (new_filed config) h

/-- Persistence is lost as a frame comes in, regained by an acknowledgement, and the process starts
again. -/
def regainedPersistence : List QueueEvent :=
  [.restart 1000 .fine, .enqueue 1000 1 (sampleFrame 1 "DATA,1") .fine,
    .enqueue 1001 2 (sampleFrame 2 "DATA,2") ⟨⟨true, .fine⟩, ⟨true, false, 4⟩, .fine⟩,
    .enqueue 1002 3 (sampleFrame 3 "DATA,3") ⟨⟨false, .fine⟩, ⟨true, true, 0⟩, .fine⟩,
    .acknowledgeExact 6000000000 (sampleFrame 2 "DATA,2") .fine,
    .enqueue 1008 6000000001 (sampleFrame 4 "DATA,4") .fine, .restart 1009 .fine]

/-- Regaining persistence by an acknowledgement keeps the file. -/
theorem durable_of_keepsFile_regainedPersistence :
    Holds step Durable (new sampleConfig none) regainedPersistence :=
  durable_of_keepsFile (by decide +kernel)

/-- The file cannot be created at first, and the frame that comes in once it can is written twice. -/
def doubledFrame : List QueueEvent :=
  [.restart 1000 ⟨true, true, false, .fine⟩, .enqueue 1001 1 (sampleFrame 1 "DATA,1") .fine]

/-- The frame written twice is read back twice, and the file is longer than counted. -/
theorem doubledFrame_not_durable : ¬ Holds step Durable (new sampleConfig none) doubledFrame := by
  intro h
  exact absurd (h.last.length_eq (by decide +kernel)) (by decide +kernel)

end TelemetryQueue

end Coatheal.Queue
