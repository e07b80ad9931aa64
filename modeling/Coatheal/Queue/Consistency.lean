import Coatheal.Library.Run
import Coatheal.Queue.Index
import Coatheal.Queue.TelemetryQueue

/-!
# The queue's tables over whole runs

What each operation does to the pending frames: it inserts, removes, or drops
the count of dead lines. From this the tables of the queue agree with its
pending frames in every state of a run in which no frame comes in, from a caller
or from the file, under a key that is pending.
-/

namespace Coatheal.Queue

open Coatheal.Library Coatheal.Library.Text

/-- The frames a file holds for a queue that reads it now. -/
def loadedFrames (retentionS now : ℤ) (text : List Char) : List QueuedTelemetryFrame :=
  (parsedFrames text).filter fun frame => !Backlog.expired retentionS now frame

namespace Backlog

variable {backlog : Backlog}

/-- Insert frames one after the other. -/
def insertAll (backlog : Backlog) (frames : List QueuedTelemetryFrame) : Backlog :=
  frames.foldl insertLocked backlog

/-- A backlog with its count of dead lines kept or dropped. -/
def Settled (before after : Backlog) : Prop := after = before ∨ after = before.compacted

/-- Dropping the count twice is dropping it once. -/
theorem Settled.trans {first second third : Backlog} (h : first.Settled second)
    (hnext : second.Settled third) : first.Settled third := by
  rcases h with rfl | rfl
  · exact hnext
  · rcases hnext with rfl | rfl
    · exact Or.inr rfl
    · exact Or.inr rfl

/-- Settling keeps what a compaction keeps. -/
theorem Settled.keep {keeps : Backlog → Prop} {before after : Backlog} (h : before.Settled after)
    (hcompacted : ∀ backlog : Backlog, keeps backlog → keeps backlog.compacted) (hbefore : keeps before) :
    keeps after := by
  rcases h with rfl | rfl
  · exact hbefore
  · exact hcompacted _ hbefore

/-- The count of dead lines is no matter to the tables. -/
theorem Settled.arranged {before after : Backlog} (h : before.Settled after) (hbefore : before.Arranged) :
    after.Arranged :=
  h.keep (fun _ hcurrent => { hcurrent with dead_eq := rfl }) hbefore

/-- The count of dead lines is no matter to the keys. -/
theorem Settled.keyed {before after : Backlog} (h : before.Settled after) (hbefore : before.Keyed) :
    after.Keyed :=
  h.keep (fun _ hcurrent => hcurrent) hbefore

/-- Inserting frames keeps what one insertion keeps. -/
theorem insertAll_keep {keeps : Backlog → Prop}
    (hinsert : ∀ current frame, keeps current → keeps (current.insertLocked frame)) (h : keeps backlog)
    (frames : List QueuedTelemetryFrame) : keeps (backlog.insertAll frames) := by
  induction frames generalizing backlog with
  | nil => exact h
  | cons frame rest ih => exact ih (hinsert backlog frame h)

/-- Inserting frames keeps the tables in agreement. -/
theorem insertAll_arranged (h : backlog.Arranged) (frames : List QueuedTelemetryFrame) :
    (backlog.insertAll frames).Arranged :=
  @insertAll_keep backlog Arranged (fun _ frame hcurrent => insertLocked_arranged hcurrent frame) h frames

/-- A pending frame after an insertion was pending before or is the new one. -/
theorem mem_insertLocked {index : ℕ} {found frame : QueuedTelemetryFrame}
    (h : (index, found) ∈ (backlog.insertLocked frame).frames) :
    (index, found) ∈ backlog.frames ∨ found = { frame with index := backlog.nextIndex } := by
  rw [(insertLocked_spec backlog frame).1, SortedMap.mem_insert] at h
  rcases h with hsame | ⟨-, hmem⟩
  · exact Or.inr (congrArg Prod.snd hsame)
  · exact Or.inl hmem

/-- Inserting frames with keys of their own keeps the keys indexed. -/
theorem insertAll_keyed {frames : List QueuedTelemetryFrame} (hkeyed : backlog.Keyed)
    (h : backlog.Arranged) (hdistinct : (frames.map QueuedTelemetryFrame.key).Nodup)
    (hfresh : ∀ frame ∈ frames, ∀ index found, (index, found) ∈ backlog.frames → found.key ≠ frame.key) :
    (backlog.insertAll frames).Keyed := by
  induction frames generalizing backlog with
  | nil => exact hkeyed
  | cons frame rest ih =>
    obtain ⟨hhead, hrest⟩ := List.nodup_cons.mp hdistinct
    refine ih (insertLocked_keyed hkeyed h (hfresh frame List.mem_cons_self))
      (insertLocked_arranged h frame) hrest ?_
    intro other hother index found hfound
    rcases mem_insertLocked hfound with hold | rfl
    · exact hfresh other (List.mem_cons_of_mem _ hother) index found hold
    · intro hkey
      exact hhead (List.mem_map.mpr ⟨other, hother, hkey.symm⟩)

end Backlog

/-- Reading the lines of a file inserts the frames it holds. -/
theorem foldl_loadLine (retentionS now : ℤ) (lines : List (List Char)) (loading : Loading) :
    (lines.foldl (loadLine retentionS now) loading).backlog =
      loading.backlog.insertAll
        ((lines.filterMap parseLine).filter fun frame => !Backlog.expired retentionS now frame) := by
  induction lines generalizing loading with
  | nil => rfl
  | cons line rest ih =>
    rw [List.foldl_cons, ih]
    unfold loadLine
    by_cases hempty : line = []
    · have hnone : parseLine [] = none := rfl
      rw [if_pos hempty, hempty, List.filterMap_cons_none hnone]
    · rw [if_neg hempty]
      cases hparse : parseLine line with
      | none => rw [List.filterMap_cons_none hparse]
      | some frame =>
        rw [List.filterMap_cons_some hparse]
        by_cases hexpired : Backlog.expired retentionS now frame = true
        · rw [List.filter_cons_of_neg (by simp [hexpired])]
          simp only [hexpired, if_true]
        · rw [List.filter_cons_of_pos (by simp [hexpired])]
          simp only [hexpired]
          rfl

namespace TelemetryQueue

variable {queue : TelemetryQueue}

/-- The temporary file of a compaction. -/
def temporary (queue : TelemetryQueue) (io : CompactIo) : List Char :=
  if io.closes then fileText queue.backlog.frames.values
  else (fileText queue.backlog.frames.values).take io.kept

/-- A compaction puts the temporary file in the queue file's place, or it reports an error and
leaves the queue file as it was or removed. -/
theorem compactLocked_cases (queue : TelemetryQueue) (io : CompactIo) :
    queue.compactLocked io = (none, queue.commit (queue.temporary io)) ∨
      ∃ error file, (file = queue.file ∨ file = none) ∧
        queue.compactLocked io = (some error, { queue with file := file }) := by
  unfold compactLocked temporary
  dsimp only
  split
  · exact Or.inr ⟨_, queue.file, Or.inl rfl, rfl⟩
  split
  · exact Or.inr ⟨_, queue.file, Or.inl rfl, rfl⟩
  split
  · exact Or.inl rfl
  split
  · split
    · exact Or.inl rfl
    · exact Or.inl rfl
  · split
    · exact Or.inr ⟨_, none, Or.inr rfl, rfl⟩
    · exact Or.inr ⟨_, queue.file, Or.inl rfl, rfl⟩

/-- What a compaction leaves behind when its failure ends persistence. -/
inductive Compaction (queue : TelemetryQueue) (io : CompactIo) : TelemetryQueue → Prop where
  | done : Compaction queue io (queue.commit (queue.temporary io))
  | failed (file : Option (List Char)) (hfile : file = queue.file ∨ file = none) :
      Compaction queue io { queue with persistenceEnabled := false, file := file }

/-- Compacting or giving up persistence is a compaction. -/
theorem compactOrDisable_cases (queue : TelemetryQueue) (io : CompactIo) :
    Compaction queue io (queue.compactOrDisable io) := by
  unfold compactOrDisable
  rcases compactLocked_cases queue io with hdone | ⟨error, file, hfile, hfailed⟩
  · rw [hdone]
    exact .done
  · rw [hfailed]
    exact .failed file hfile

/-- A compaction that may be put off happens while persistence is on. -/
theorem maybeCompactLocked_cases (queue : TelemetryQueue) (io : CompactIo) :
    queue.maybeCompactLocked io = queue ∨
      queue.persistenceEnabled = true ∧ Compaction queue io (queue.maybeCompactLocked io) := by
  unfold maybeCompactLocked
  cases henabled : queue.persistenceEnabled with
  | false => exact Or.inl rfl
  | true =>
    simp only [Bool.not_true, Bool.false_eq_true, if_false]
    split
    · exact Or.inl rfl
    · split
      · exact Or.inl rfl
      · exact Or.inr ⟨trivial, compactOrDisable_cases queue io⟩

/-- Persistence is tried again only while it is off, and by a compaction. -/
theorem retryPersistenceLocked_cases (queue : TelemetryQueue) (now : ℤ) (io : RetryIo) :
    queue.retryPersistenceLocked now io = queue ∨
      queue.persistenceEnabled = false ∧ ∃ next,
        (queue.retryPersistenceLocked now io = { queue with nextPersistenceRetry := next } ∨
          Compaction { queue with nextPersistenceRetry := next, persistenceEnabled := true } io.compact
            (queue.retryPersistenceLocked now io)) := by
  unfold retryPersistenceLocked
  cases henabled : queue.persistenceEnabled with
  | true => exact Or.inl rfl
  | false =>
    simp only [Bool.false_eq_true, if_false]
    split
    · exact Or.inl rfl
    · refine Or.inr ⟨trivial, now + 5000000000, ?_⟩
      split
      · exact Or.inl rfl
      · exact Or.inr (compactOrDisable_cases _ io.compact)

/-- A compaction keeps or drops the count of dead lines. -/
theorem Compaction.settled {io : CompactIo} {after : TelemetryQueue} (h : Compaction queue io after) :
    queue.backlog.Settled after.backlog := by
  cases h with
  | done => exact Or.inr rfl
  | failed file hfile => exact Or.inl rfl

/-- A compaction that may be put off keeps or drops the count of dead lines. -/
theorem maybeCompactLocked_settled (queue : TelemetryQueue) (io : CompactIo) :
    queue.backlog.Settled (queue.maybeCompactLocked io).backlog := by
  rcases maybeCompactLocked_cases queue io with hsame | ⟨-, hcompaction⟩
  · rw [hsame]
    exact Or.inl rfl
  · exact hcompaction.settled

/-- Trying persistence again keeps or drops the count of dead lines. -/
theorem retryPersistenceLocked_settled (queue : TelemetryQueue) (now : ℤ) (io : RetryIo) :
    queue.backlog.Settled (queue.retryPersistenceLocked now io).backlog := by
  rcases retryPersistenceLocked_cases queue now io with hsame | ⟨-, next, hwaiting | hcompaction⟩
  · rw [hsame]
    exact Or.inl rfl
  · rw [hwaiting]
    exact Or.inl rfl
  · exact hcompaction.settled

/-- The queue after the persistence retry of `Enqueue`. -/
def retried (queue : TelemetryQueue) (now steady : ℤ) (frame : QueuedTelemetryFrame) (io : OperationIo) :
    TelemetryQueue :=
  (queue.store now frame).retryPersistenceLocked steady io.retry

/-- The queue with more text in its file. -/
def extend (queue : TelemetryQueue) (text : List Char) : TelemetryQueue :=
  { queue with file := some (queue.file.getD [] ++ text) }

/-- The line `Enqueue` appends. -/
def appended (frame : QueuedTelemetryFrame) : List Char := formatLine frame ++ ['\n']

/-- Everything that enqueuing a frame can leave behind, from the persistence retry on. -/
inductive Enqueued (retried : TelemetryQueue) (frame : QueuedTelemetryFrame) (io : OperationIo) :
    TelemetryQueue → Prop where
  | memoryOnly (hoff : retried.persistenceEnabled = false) : Enqueued retried frame io retried
  | notOpened (hon : retried.persistenceEnabled = true) (hopens : io.append.opens = false) :
      Enqueued retried frame io { retried with persistenceEnabled := false }
  | torn (hon : retried.persistenceEnabled = true) (hopens : io.append.opens = true)
      (hflushes : io.append.flushes = false) :
      Enqueued retried frame io
        { retried.extend ((appended frame).take io.append.kept) with persistenceEnabled := false }
  | whole (hon : retried.persistenceEnabled = true) (hopens : io.append.opens = true)
      (hflushes : io.append.flushes = true) :
      Enqueued retried frame io ((retried.extend (appended frame)).maybeCompactLocked io.compact)

/-- Enqueuing stays in memory, fails to append, or appends and may compact. -/
theorem enqueue_cases (queue : TelemetryQueue) (now steady : ℤ) (frame : QueuedTelemetryFrame)
    (io : OperationIo) :
    Enqueued (queue.retried now steady frame io) frame io (queue.enqueue now steady frame io).2 := by
  unfold enqueue retried
  dsimp only
  cases hon : ((queue.store now frame).retryPersistenceLocked steady io.retry).persistenceEnabled with
  | false => exact .memoryOnly hon
  | true =>
    simp only [Bool.not_true, Bool.false_eq_true, if_false, appendToFileLocked, AppendIo.written]
    cases hopens : io.append.opens with
    | false => exact .notOpened hon hopens
    | true =>
      cases hflushes : io.append.flushes with
      | false => exact .torn hon hopens hflushes
      | true => exact .whole hon hopens hflushes

/-- Enqueuing inserts the frame and prunes. -/
theorem enqueue_backlog (queue : TelemetryQueue) (now steady : ℤ) (frame : QueuedTelemetryFrame)
    (io : OperationIo) :
    (queue.store now frame).backlog.Settled (queue.enqueue now steady frame io).2.backlog := by
  have hretry : (queue.store now frame).backlog.Settled (queue.retried now steady frame io).backlog :=
    retryPersistenceLocked_settled (queue.store now frame) steady io.retry
  have hcases := enqueue_cases queue now steady frame io
  generalize (queue.enqueue now steady frame io).2 = after at hcases ⊢
  generalize queue.retried now steady frame io = retried at hcases hretry
  cases hcases with
  | memoryOnly hoff => exact hretry
  | notOpened hon hopens => exact hretry
  | torn hon hopens hflushes => exact hretry
  | whole hon hopens hflushes => exact hretry.trans (maybeCompactLocked_settled _ io.compact)

/-- What follows an acknowledgement keeps or drops the count of dead lines. -/
theorem settle_backlog (queue : TelemetryQueue) (steady : ℤ) (io : OperationIo) :
    queue.backlog.Settled (queue.settle steady io).backlog :=
  (retryPersistenceLocked_settled queue steady io.retry).trans (maybeCompactLocked_settled _ io.compact)

/-- A cumulative acknowledgement removes frames. -/
theorem acknowledge_backlog (queue : TelemetryQueue) (steady : ℤ) (sessionId : List Char) (seq : UInt64)
    (io : OperationIo) :
    ∃ current, Backlog.Removed queue.backlog current ∧
      current.Settled (queue.acknowledge steady sessionId seq io).backlog := by
  unfold acknowledge
  dsimp only
  split
  · exact ⟨queue.backlog, .refl, Or.inl rfl⟩
  · exact ⟨_, Backlog.foldl_removed _ _, settle_backlog _ steady io⟩

/-- An exact acknowledgement removes at most one frame. -/
theorem acknowledgeExact_backlog (queue : TelemetryQueue) (steady : ℤ) (frame : QueuedTelemetryFrame)
    (io : OperationIo) :
    ∃ current, Backlog.Removed queue.backlog current ∧
      current.Settled (queue.acknowledgeExact steady frame io).backlog := by
  unfold acknowledgeExact
  split
  · exact ⟨queue.backlog, .refl, Or.inl rfl⟩
  case h_2 index hindex => exact ⟨_, Backlog.Removed.refl.remove index, settle_backlog _ steady io⟩

/-- The queue with the frames of a text. -/
def load (queue : TelemetryQueue) (now : ℤ) (text : List Char) : TelemetryQueue :=
  { queue with backlog := Backlog.empty.insertAll (loadedFrames queue.config.retentionS now text) }

/-- Everything that initializing a queue can leave behind. -/
inductive Initialized (queue : TelemetryQueue) (now : ℤ) (io : InitializeIo) : TelemetryQueue → Prop where
  | noDirectory (hdir : io.createDir = false) :
      Initialized queue now io { queue with persistenceEnabled := false }
  | notCreated (hdir : io.createDir = true) (hcreate : io.createOpens = false)
      (hread : io.readOpens = false ∨ queue.file = none) :
      Initialized queue now io { queue with backlog := .empty, persistenceEnabled := false }
  | created (hdir : io.createDir = true) (hcreate : io.createOpens = true)
      (hread : io.readOpens = false ∨ queue.file = none) :
      Initialized queue now io { queue with backlog := .empty, file := some (queue.file.getD []) }
  | loaded (after : TelemetryQueue) (text : List Char) (hdir : io.createDir = true)
      (hread : io.readOpens = true) (hfile : queue.file = some text)
      (hcompaction : Compaction (queue.load now text) io.compact after) : Initialized queue now io after

/-- Initializing finds no directory, finds no file and creates one or not, or loads the file and
compacts it. -/
theorem initializeQueue_cases (queue : TelemetryQueue) (now : ℤ) (io : InitializeIo) :
    Initialized queue now io (queue.initializeQueue now io).2 := by
  unfold initializeQueue
  dsimp only
  by_cases hdir : io.createDir = true
  · simp only [hdir, Bool.not_true, Bool.false_eq_true, if_false]
    split
    case h_1 hmissing =>
      have hread : io.readOpens = false ∨ queue.file = none := by
        by_cases hopens : io.readOpens = true
        · rw [if_pos hopens] at hmissing
          exact Or.inr hmissing
        · exact Or.inl (Bool.eq_false_iff.mpr hopens)
      by_cases hcreate : io.createOpens = true
      · simp only [hcreate, Bool.not_true, Bool.false_eq_true, if_false]
        exact .created hdir hcreate hread
      · have hclosed : io.createOpens = false := Bool.eq_false_iff.mpr hcreate
        simp only [hclosed, Bool.not_false, if_true]
        exact .notCreated hdir hclosed hread
    case h_2 text hpresent =>
      have hread : io.readOpens = true := by
        by_contra hno
        rw [if_neg hno] at hpresent
        exact absurd hpresent (by simp)
      rw [if_pos hread] at hpresent
      have hload : (((getlines '\n' text).foldl (loadLine queue.config.retentionS now)
          ⟨.empty, 0, 0⟩).backlog) =
          Backlog.empty.insertAll (loadedFrames queue.config.retentionS now text) :=
        foldl_loadLine _ _ _ _
      rw [hload]
      refine .loaded _ text hdir hread hpresent ?_
      rcases compactLocked_cases (queue.load now text) io.compact with hdone | ⟨error, file, hfile, hfailed⟩
      · unfold load at hdone ⊢
        rw [hdone]
        exact .done
      · unfold load at hfailed ⊢
        rw [hfailed]
        exact .failed file hfile
  · have hnone : io.createDir = false := Bool.eq_false_iff.mpr hdir
    simp only [hnone, Bool.not_false, if_true]
    exact .noDirectory hnone

/-- The frames a queue takes up when it is initialized. -/
def taken (queue : TelemetryQueue) (now : ℤ) (io : InitializeIo) : List QueuedTelemetryFrame :=
  if io.createDir ∧ io.readOpens then loadedFrames queue.config.retentionS now (queue.file.getD []) else []

/-- Initializing leaves the frames alone, drops them, or loads the file. -/
theorem Initialized.backlog {now : ℤ} {io : InitializeIo} {after : TelemetryQueue}
    (h : Initialized queue now io after) :
    after.backlog = queue.backlog ∨ after.backlog = .empty ∨
      (Backlog.empty.insertAll (queue.taken now io)).Settled after.backlog := by
  cases h with
  | noDirectory hdir => exact Or.inl rfl
  | notCreated hdir hcreate hread => exact Or.inr (Or.inl rfl)
  | created hdir hcreate hread => exact Or.inr (Or.inl rfl)
  | loaded after text hdir hread hfile hcompaction =>
    have htaken : queue.taken now io = loadedFrames queue.config.retentionS now text := by
      rw [taken, if_pos ⟨hdir, hread⟩, hfile, Option.getD_some]
    rw [htaken]
    exact Or.inr (Or.inr hcompaction.settled)

/-- The tables are as their members' comments say, and the next replay is the middle of the longest,
on a tie the oldest, run. -/
structure Consistent (queue : TelemetryQueue) : Prop where
  arranged : queue.backlog.Arranged
  keyed : queue.backlog.Keyed
  replaysLongest : queue.backlog.ReplaysLongest

/-- No frame comes in under a key that is pending: an enqueued frame has a key of its own, and the
frames of a file that is read have keys of their own. -/
def KeysFresh (queue : TelemetryQueue) : QueueEvent → Prop
  | .restart now io => (((new queue.config queue.file).taken now io).map QueuedTelemetryFrame.key).Nodup
  | .reload now io => ((queue.taken now io).map QueuedTelemetryFrame.key).Nodup
  | .enqueue _ _ frame _ => ∀ entry ∈ queue.backlog.frames.entries, entry.2.key ≠ frame.key
  | .acknowledge _ _ _ _ => True
  | .acknowledgeExact _ _ _ => True

/-- Fresh keys can be told. -/
instance (queue : TelemetryQueue) : (event : QueueEvent) → Decidable (queue.KeysFresh event)
  | .restart _ _ => inferInstanceAs (Decidable (List.Nodup _))
  | .reload _ _ => inferInstanceAs (Decidable (List.Nodup _))
  | .enqueue _ _ _ _ => inferInstanceAs (Decidable (∀ entry ∈ _, _))
  | .acknowledge _ _ _ _ => inferInstanceAs (Decidable True)
  | .acknowledgeExact _ _ _ => inferInstanceAs (Decidable True)

/-- Loading frames with keys of their own indexes them. -/
theorem Initialized.keyed {now : ℤ} {io : InitializeIo} {after : TelemetryQueue}
    (h : Initialized queue now io after) (hbefore : queue.backlog.Keyed)
    (hdistinct : ((queue.taken now io).map QueuedTelemetryFrame.key).Nodup) : after.backlog.Keyed := by
  rcases h.backlog with hsame | hempty | hloaded
  · rwa [hsame]
  · rw [hempty]
    exact Backlog.empty_keyed
  · exact hloaded.keyed (Backlog.insertAll_keyed Backlog.empty_keyed Backlog.empty_arranged hdistinct
      fun _ _ _ _ hmem => absurd hmem SortedMap.notMem_empty)

/-- Initializing keeps what an empty backlog has and what insertions and compactions keep. -/
theorem Initialized.keep {keeps : Backlog → Prop} {now : ℤ} {io : InitializeIo} {after : TelemetryQueue}
    (h : Initialized queue now io after) (hempty : keeps .empty)
    (hinsert : ∀ backlog frame, keeps backlog → keeps (backlog.insertLocked frame))
    (hcompacted : ∀ backlog : Backlog, keeps backlog → keeps backlog.compacted)
    (hbefore : keeps queue.backlog) : keeps after.backlog := by
  rcases h.backlog with hsame | hnone | hloaded
  · rwa [hsame]
  · rwa [hnone]
  · exact hloaded.keep hcompacted (Backlog.insertAll_keep hinsert hempty _)

/-- Every event keeps what an empty backlog has and what insertions, removals and compactions keep. -/
theorem step_keep {keeps : Backlog → Prop} (hempty : keeps .empty)
    (hinsert : ∀ backlog frame, keeps backlog → keeps (backlog.insertLocked frame))
    (hremove : ∀ backlog index, keeps backlog → keeps (backlog.removeLocked index))
    (hcompacted : ∀ backlog : Backlog, keeps backlog → keeps backlog.compacted)
    (queue : TelemetryQueue) (event : QueueEvent) (h : keeps queue.backlog) :
    keeps (queue.step event).backlog := by
  cases event with
  | restart now io =>
    exact (initializeQueue_cases (new queue.config queue.file) now io).keep hempty hinsert hcompacted hempty
  | reload now io => exact (initializeQueue_cases queue now io).keep hempty hinsert hcompacted h
  | enqueue now steady frame io =>
    have hstored : keeps (queue.store now frame).backlog :=
      (Backlog.pruneLocked_removed _ _ _ _).keep hremove (hinsert _ frame h)
    exact (enqueue_backlog queue now steady frame io).keep hcompacted hstored
  | acknowledge steady sessionId seq io =>
    obtain ⟨current, hremoved, hsettled⟩ := acknowledge_backlog queue steady sessionId seq io
    exact hsettled.keep hcompacted (hremoved.keep hremove h)
  | acknowledgeExact steady frame io =>
    obtain ⟨current, hremoved, hsettled⟩ := acknowledgeExact_backlog queue steady frame io
    exact hsettled.keep hcompacted (hremoved.keep hremove h)

/-- Every event keeps the tables in agreement with the frames. -/
theorem step_arranged (queue : TelemetryQueue) (event : QueueEvent) (h : queue.backlog.Arranged) :
    (queue.step event).backlog.Arranged :=
  step_keep Backlog.empty_arranged (fun _ frame hbefore => Backlog.insertLocked_arranged hbefore frame)
    (fun _ index hbefore => Backlog.removeLocked_arranged hbefore index)
    (fun _ hbefore => { hbefore with dead_eq := rfl }) queue event h

/-- Every event keeps what the index finds pending. -/
theorem step_keySound (queue : TelemetryQueue) (event : QueueEvent)
    (h : queue.backlog.Arranged ∧ queue.backlog.KeySound) :
    (queue.step event).backlog.Arranged ∧ (queue.step event).backlog.KeySound :=
  @step_keep (fun backlog => backlog.Arranged ∧ backlog.KeySound)
    ⟨Backlog.empty_arranged, fun _ _ hlookup => absurd hlookup (by simp [Backlog.empty])⟩
    (fun _ frame hkept =>
      ⟨Backlog.insertLocked_arranged hkept.1 frame, Backlog.insertLocked_keySound hkept.2 hkept.1 frame⟩)
    (fun _ index hkept =>
      ⟨Backlog.removeLocked_arranged hkept.1 index, Backlog.removeLocked_keySound hkept.2 index⟩)
    (fun _ hkept => ⟨{ hkept.1 with dead_eq := rfl }, hkept.2⟩) queue event h

/-- An event under which no key comes in twice keeps the keys indexed. -/
theorem step_keyed (queue : TelemetryQueue) (event : QueueEvent) (harranged : queue.backlog.Arranged)
    (h : queue.backlog.Keyed) (hfresh : queue.KeysFresh event) : (queue.step event).backlog.Keyed := by
  cases event with
  | restart now io =>
    exact (initializeQueue_cases (new queue.config queue.file) now io).keyed Backlog.empty_keyed hfresh
  | reload now io => exact (initializeQueue_cases queue now io).keyed h hfresh
  | enqueue now steady frame io =>
    have hinserted := Backlog.insertLocked_keyed h harranged fun index found hmem => hfresh (index, found) hmem
    have hstored : (queue.store now frame).backlog.Keyed :=
      (Backlog.pruneLocked_removed _ _ _ _).keyed hinserted
    exact (enqueue_backlog queue now steady frame io).keyed hstored
  | acknowledge steady sessionId seq io =>
    obtain ⟨current, hremoved, hsettled⟩ := acknowledge_backlog queue steady sessionId seq io
    exact hsettled.keyed (hremoved.keyed h)
  | acknowledgeExact steady frame io =>
    obtain ⟨current, hremoved, hsettled⟩ := acknowledgeExact_backlog queue steady frame io
    exact hsettled.keyed (hremoved.keyed h)

/-- In every run in which no key comes in twice, the tables agree in every state. -/
theorem consistent_of_keysFresh {config : QueueConfig} {file : Option (List Char)}
    {events : List QueueEvent} (h : Meets step KeysFresh (new config file) events) :
    Holds step Consistent (new config file) events :=
  @holds_of_meets _ _ step KeysFresh (fun queue => queue.backlog.Arranged ∧ queue.backlog.Keyed) Consistent
    (fun queue event hkept hfresh =>
      ⟨step_arranged queue event hkept.1, step_keyed queue event hkept.1 hkept.2 hfresh⟩)
    (fun _ hkept => ⟨hkept.1, hkept.2, hkept.1.replaysLongest⟩) _ events
    ⟨Backlog.empty_arranged, Backlog.empty_keyed⟩ h

/-- The default thresholds with a retention of 72 hours. -/
def sampleConfig : QueueConfig := ⟨"/var/lib/coatheal/queue", 259200, 0, 524288, 16777216, 65536⟩

/-- A data frame of one session. -/
def sampleFrame (seq : UInt64) (text : String) : QueuedTelemetryFrame :=
  ⟨1000, "s1".toList, seq, text.toList, 0⟩

/-- Three frames, one of them a pull event, come in; two are acknowledged; the process starts again. -/
def sampleEvents : List QueueEvent :=
  [.restart 1000 .fine, .enqueue 1000 1 (sampleFrame 1 "DATA,1") .fine,
    .enqueue 1001 2 (sampleFrame 2 "EVT,PULL") .fine, .enqueue 1002 3 (sampleFrame 3 "DATA,3") .fine,
    .acknowledgeExact 4 (sampleFrame 2 "EVT,PULL") .fine, .acknowledge 5 "s1".toList 1 .fine,
    .restart 1003 .fine]

/-- In the sample no key comes in twice. -/
theorem consistent_of_keysFresh_sampleEvents :
    Holds step Consistent (new sampleConfig none) sampleEvents :=
  consistent_of_keysFresh (by decide +kernel)

/-- The file cannot be created; a frame comes in once it can; the process starts again. -/
def retriedEnqueue : List QueueEvent :=
  [.restart 1000 ⟨true, true, false, .fine⟩, .enqueue 1001 1 (sampleFrame 1 "DATA,1") .fine,
    .restart 1002 .fine]

/-- The frame that comes in as persistence is regained stands in the file twice and is loaded twice,
and only one of the two is indexed. -/
theorem retriedEnqueue_not_consistent :
    ¬ Holds step Consistent (new sampleConfig none) retriedEnqueue := by
  intro h
  have hfirst : (0, sampleFrame 1 "DATA,1") ∈
      (run step (new sampleConfig none) retriedEnqueue).backlog.frames :=
    SortedMap.find?_eq_some.mp (by decide +kernel)
  have hsecond : (1, { sampleFrame 1 "DATA,1" with index := 1 }) ∈
      (run step (new sampleConfig none) retriedEnqueue).backlog.frames :=
    SortedMap.find?_eq_some.mp (by decide +kernel)
  exact absurd (h.last.keyed.eq_of_key_eq hfirst hsecond rfl) (by decide)

end TelemetryQueue

end Coatheal.Queue
