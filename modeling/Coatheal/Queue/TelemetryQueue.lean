import Coatheal.Queue.Backlog

/-!
# The telemetry queue and its file

The operations of `TelemetryQueue` over the pending frames and the queue file.
What the file system does is an argument of each operation: whether a file
opens, a stream stays good, a rename succeeds, and how much of what was written
reaches the disk when a flush fails. A process that dies in the middle of an
operation leaves the file as a failure at that point does. Clock readings are
seconds of the system clock and nanoseconds of the steady clock.
-/

namespace Coatheal.Queue

open Coatheal.Library.Text

/-- The settings of a queue. -/
structure QueueConfig where
  queueDir : String
  retentionS : ℤ
  maxBytes : ℕ
  compactMinDeadBytes : ℕ
  compactMaxLiveBytes : ℕ
  compactCheapLiveBytes : ℕ
deriving DecidableEq, Repr

/-- The path of the queue file. -/
def QueueConfig.queueFile (config : QueueConfig) : String := config.queueDir ++ "/pending.queue"

/-- What happens to the temporary file of a compaction: it opens, the stream is good after every
line, closing flushes all of it or only its first bytes, and it is renamed over the queue file,
at once or after the queue file was removed. -/
structure CompactIo where
  opens : Bool
  writes : Bool
  closes : Bool
  kept : ℕ
  renames : Bool
  removes : Bool
  renamesAgain : Bool
deriving DecidableEq, Repr

/-- What happens to an append: the file opens, and the flush writes all of the line or only its
first bytes. -/
structure AppendIo where
  opens : Bool
  flushes : Bool
  kept : ℕ
deriving DecidableEq, Repr

/-- What happens when persistence is tried again. -/
structure RetryIo where
  createDir : Bool
  compact : CompactIo
deriving DecidableEq, Repr

/-- What happens in an operation on a running queue. -/
structure OperationIo where
  retry : RetryIo
  append : AppendIo
  compact : CompactIo
deriving DecidableEq, Repr

/-- What happens when a queue is initialized. -/
structure InitializeIo where
  createDir : Bool
  readOpens : Bool
  createOpens : Bool
  compact : CompactIo
deriving DecidableEq, Repr

/-- Every write succeeds. -/
def CompactIo.fine : CompactIo := ⟨true, true, true, 0, true, true, true⟩

/-- Every operation succeeds. -/
def OperationIo.fine : OperationIo := ⟨⟨true, .fine⟩, ⟨true, true, 0⟩, .fine⟩

/-- The file is read, or created when there is none. -/
def InitializeIo.fine : InitializeIo := ⟨true, true, true, .fine⟩

/-- The bytes of a text that reach the file. -/
def AppendIo.written (io : AppendIo) (text : List Char) : List Char :=
  if io.flushes then text else text.take io.kept

/-- The queue with its file, which may be missing. -/
structure TelemetryQueue where
  config : QueueConfig
  backlog : Backlog
  persistenceEnabled : Bool
  nextPersistenceRetry : ℤ
  file : Option (List Char)

/-- Drop the count of lines that are no longer in the file. -/
def Backlog.compacted (backlog : Backlog) : Backlog := { backlog with deadBytes := 0, retired := [] }

/-- The pending frames while the file is read, and the lines that were dropped. -/
structure Loading where
  backlog : Backlog
  skippedLines : ℕ
  expiredFrames : ℕ

/-- Take up one line of the file: what parses and is not expired is inserted. -/
def loadLine (retentionS now : ℤ) (loading : Loading) (line : List Char) : Loading :=
  if line = [] then loading
  else
    match parseLine line with
    | none => { loading with skippedLines := loading.skippedLines + 1 }
    | some frame =>
      if Backlog.expired retentionS now frame then
        { loading with expiredFrames := loading.expiredFrames + 1 }
      else { loading with backlog := loading.backlog.insertLocked frame }

namespace TelemetryQueue

/-- A new queue object beside a file. -/
def new (config : QueueConfig) (file : Option (List Char)) : TelemetryQueue :=
  ⟨config, .empty, true, 0, file⟩

/-- The temporary file takes the place of the queue file. -/
def commit (queue : TelemetryQueue) (temporary : List Char) : TelemetryQueue :=
  { queue with file := some temporary, backlog := queue.backlog.compacted }

/-- `CompactLocked`: rewrite the file with the pending frames alone. The result is the error, or
nothing on success. -/
def compactLocked (queue : TelemetryQueue) (io : CompactIo) : Option String × TelemetryQueue :=
  if !io.opens then (some "unable to write temporary queue file", queue)
  else if !io.writes && !queue.backlog.frames.entries.isEmpty then
    (some "failed to persist queue frame", queue)
  else
    let text := fileText queue.backlog.frames.values
    let temporary := if io.closes then text else text.take io.kept
    if io.renames then (none, queue.commit temporary)
    else
      let removed := if io.removes then { queue with file := none } else queue
      if io.renamesAgain then (none, removed.commit temporary)
      else (some "unable to commit queue file", removed)

/-- Compact, and give up persistence when that fails. -/
def compactOrDisable (queue : TelemetryQueue) (io : CompactIo) : TelemetryQueue :=
  match queue.compactLocked io with
  | (none, compacted) => compacted
  | (some _, failed) => { failed with persistenceEnabled := false }

/-- `MaybeCompactLocked`: compact when that is cheap or drops enough dead weight. -/
def maybeCompactLocked (queue : TelemetryQueue) (io : CompactIo) : TelemetryQueue :=
  if !queue.persistenceEnabled then queue
  else if queue.backlog.deadBytes = 0 then queue
  else
    let rewriteIsCheap := queue.backlog.liveBytes ≤ queue.config.compactCheapLiveBytes
    let deadWeightWorthDropping :=
      queue.backlog.deadBytes ≥ queue.config.compactMinDeadBytes ∧
        queue.backlog.liveBytes ≤ queue.config.compactMaxLiveBytes
    if ¬ rewriteIsCheap ∧ ¬ deadWeightWorthDropping then queue else queue.compactOrDisable io

/-- `RetryPersistenceLocked`: at most every five seconds, try to write the file anew. -/
def retryPersistenceLocked (queue : TelemetryQueue) (now : ℤ) (io : RetryIo) : TelemetryQueue :=
  if queue.persistenceEnabled then queue
  else if queue.nextPersistenceRetry ≠ 0 ∧ now < queue.nextPersistenceRetry then queue
  else
    let waiting := { queue with nextPersistenceRetry := now + 5000000000 }
    if !io.createDir then waiting
    else { waiting with persistenceEnabled := true }.compactOrDisable io.compact

/-- `AppendToFileLocked`: append the line of a frame; false when it may not be whole. -/
def appendToFileLocked (queue : TelemetryQueue) (frame : QueuedTelemetryFrame) (io : AppendIo) :
    Bool × TelemetryQueue :=
  if !io.opens then (false, queue)
  else
    (io.flushes,
      { queue with file := some (queue.file.getD [] ++ io.written (formatLine frame ++ ['\n'])) })

/-- `Initialize`: load the file, drop what does not parse or is expired, and compact once. The
result is success and the error text. -/
def initializeQueue (queue : TelemetryQueue) (now : ℤ) (io : InitializeIo) :
    (Bool × Option String) × TelemetryQueue :=
  if !io.createDir then
    ((false, some ("unable to create queue directory: " ++ queue.config.queueDir)),
      { queue with persistenceEnabled := false })
  else
    let cleared := { queue with backlog := .empty }
    match if io.readOpens then cleared.file else none with
    | none =>
      if !io.createOpens then
        ((false, some ("unable to initialize queue file: " ++ queue.config.queueFile)),
          { cleared with persistenceEnabled := false })
      else ((true, none), { cleared with file := some (cleared.file.getD []) })
    | some text =>
      let loading := (getlines '\n' text).foldl (loadLine queue.config.retentionS now) ⟨.empty, 0, 0⟩
      match { cleared with backlog := loading.backlog }.compactLocked io.compact with
      | (some error, failed) => ((false, some error), { failed with persistenceEnabled := false })
      | (none, compacted) =>
        ((true,
          if loading.skippedLines > 0 ∨ loading.expiredFrames > 0 then
            some ("queue loaded with " ++ toString loading.skippedLines ++ " unparseable and " ++
              toString loading.expiredFrames ++ " expired line(s) dropped")
          else none), compacted)

/-- The part of `Enqueue` before the file is written: insert and prune. -/
def store (queue : TelemetryQueue) (now : ℤ) (frame : QueuedTelemetryFrame) : TelemetryQueue :=
  { queue with
    backlog :=
      (queue.backlog.insertLocked frame).pruneLocked queue.config.retentionS queue.config.maxBytes now }

/-- `Enqueue`: insert, prune, try persistence again and append. The result is the position and the
error text; the source's return value is always true. -/
def enqueue (queue : TelemetryQueue) (now steady : ℤ) (frame : QueuedTelemetryFrame) (io : OperationIo) :
    (ℕ × Option String) × TelemetryQueue :=
  let index := queue.backlog.nextIndex
  let retried := (queue.store now frame).retryPersistenceLocked steady io.retry
  if !retried.persistenceEnabled then ((index, none), retried)
  else
    match retried.appendToFileLocked frame io.append with
    | (false, failed) =>
      ((index, some "failed to persist queue frame"), { failed with persistenceEnabled := false })
    | (true, appended) => ((index, none), appended.maybeCompactLocked io.compact)

/-- The part of an acknowledgement after frames were removed. -/
def settle (queue : TelemetryQueue) (steady : ℤ) (io : OperationIo) : TelemetryQueue :=
  (queue.retryPersistenceLocked steady io.retry).maybeCompactLocked io.compact

/-- `Acknowledge`: every frame of the session up to a number. -/
def acknowledge (queue : TelemetryQueue) (steady : ℤ) (sessionId : List Char) (seq : UInt64)
    (io : OperationIo) : TelemetryQueue :=
  let acked := queue.backlog.ackedPositions sessionId seq
  if acked = [] then queue
  else { queue with backlog := acked.foldl Backlog.removeLocked queue.backlog }.settle steady io

/-- `AcknowledgeExact`: the frame indexed under the session and number, if its text is the same. -/
def acknowledgeExact (queue : TelemetryQueue) (steady : ℤ) (frame : QueuedTelemetryFrame)
    (io : OperationIo) : TelemetryQueue :=
  match queue.backlog.exactPosition frame with
  | none => queue
  | some index => { queue with backlog := queue.backlog.removeLocked index }.settle steady io

end TelemetryQueue

/-- What happens to a queue: the process starts again on the same disk, or an operation is called. -/
inductive QueueEvent where
  | restart (now : ℤ) (io : InitializeIo)
  | reload (now : ℤ) (io : InitializeIo)
  | enqueue (now steady : ℤ) (frame : QueuedTelemetryFrame) (io : OperationIo)
  | acknowledge (steady : ℤ) (sessionId : List Char) (seq : UInt64) (io : OperationIo)
  | acknowledgeExact (steady : ℤ) (frame : QueuedTelemetryFrame) (io : OperationIo)
deriving DecidableEq, Repr

/-- What an event leaves of the queue. -/
def TelemetryQueue.step (queue : TelemetryQueue) : QueueEvent → TelemetryQueue
  | .restart now io => ((new queue.config queue.file).initializeQueue now io).2
  | .reload now io => (queue.initializeQueue now io).2
  | .enqueue now steady frame io => (queue.enqueue now steady frame io).2
  | .acknowledge steady sessionId seq io => queue.acknowledge steady sessionId seq io
  | .acknowledgeExact steady frame io => queue.acknowledgeExact steady frame io

end Coatheal.Queue
