import Coatheal.Library.Consecutive
import Coatheal.Library.SortedMap
import Coatheal.Queue.Frame
import Mathlib.Data.List.AList
import Mathlib.Order.Lattice

/-!
# The pending frames in memory

The members of `TelemetryQueue` that hold the pending frames: the frames by
position, the index by session and number, the positions of pull events, the
runs of consecutive positions by their start and by their length, and the bytes
their lines take in the file. Positions are not bounded by the width of the
source's counters. The tables are described in terms of the pending positions.
-/

namespace Coatheal.Queue

open Coatheal.Library

/-- The members about pending frames. The retired frames are bookkeeping that the source does not
keep: those removed since the last compaction, whose lines `deadBytes` counts. -/
structure Backlog where
  frames : SortedMap ℕ QueuedTelemetryFrame
  byKey : AList fun _ : List Char × UInt64 => ℕ
  events : SortedMap ℕ Unit
  runs : SortedMap ℕ ℕ
  runsByLength : SortedMap (ℤ ×ₗ ℕ) Unit
  nextIndex : ℕ
  liveBytes : ℕ
  deadBytes : ℕ
  retired : List QueuedTelemetryFrame

/-- What `std::map::at` throws for a key that is not there. -/
inductive MapError where
  | outOfRange
deriving DecidableEq, Repr

/-- `std::map::at`. -/
def fetch {V : Type} (map : SortedMap ℕ V) (key : ℕ) : Except MapError V :=
  match map.find? key with
  | some value => .ok value
  | none => .error .outOfRange

/-- The largest length key. -/
def kLengthKeyBase : ℤ := 2 ^ 64 - 1

/-- Where a run stands among the runs: longer ones first, then older ones. -/
def lengthKey (start stop : ℕ) : ℤ ×ₗ ℕ := toLex (kLengthKeyBase - ((stop : ℤ) - start + 1), start)

namespace Backlog

/-- No frame is pending. -/
def empty : Backlog := ⟨.empty, ∅, .empty, .empty, .empty, 0, 0, 0, []⟩

/-- `AddRunLocked`: list a run in both tables. -/
def addRun (backlog : Backlog) (start stop : ℕ) : Backlog :=
  { backlog with
    runs := backlog.runs.insert start stop
    runsByLength := backlog.runsByLength.insert (lengthKey start stop) () }

/-- `EraseRunLocked`: take a run out of both tables. -/
def eraseRun (backlog : Backlog) (start stop : ℕ) : Backlog :=
  { backlog with
    runsByLength := backlog.runsByLength.erase (lengthKey start stop)
    runs := backlog.runs.erase start }

/-- The new position extends the newest run if that ends right before it, or opens a run. -/
def placeInRuns (backlog : Backlog) (index : ℕ) : Backlog :=
  match backlog.runs.last? with
  | some (start, stop) =>
    if stop + 1 = index then (backlog.eraseRun start stop).addRun start index
    else backlog.addRun index index
  | none => backlog.addRun index index

/-- `InsertLocked`: append a frame under the next position. -/
def insertLocked (backlog : Backlog) (frame : QueuedTelemetryFrame) : Backlog :=
  let index := backlog.nextIndex
  let placed := placeInRuns
    { backlog with
      nextIndex := index + 1
      liveBytes := backlog.liveBytes + lineBytes frame
      byKey := backlog.byKey.insert frame.key index
      events := if frame.isEventFrame then backlog.events.insert index () else backlog.events } index
  { placed with frames := placed.frames.insert index { frame with index := index } }

/-- Split the run that held a position around it. -/
def splitRun (backlog : Backlog) (index : ℕ) : Backlog :=
  match backlog.runs.floor? index with
  | none => backlog
  | some (start, stop) =>
    if index > stop then backlog
    else
      let erased := backlog.eraseRun start stop
      let front := if start < index then erased.addRun start (index - 1) else erased
      if index < stop then front.addRun (index + 1) stop else front

/-- `RemoveLocked`: drop the frame at a position. Its line stays in the file until the next
compaction. -/
def removeLocked (backlog : Backlog) (index : ℕ) : Backlog :=
  match backlog.frames.find? index with
  | none => backlog
  | some frame =>
    splitRun
      { backlog with
        liveBytes := backlog.liveBytes - lineBytes frame
        deadBytes := backlog.deadBytes + lineBytes frame
        byKey :=
          if backlog.byKey.lookup frame.key = some index then backlog.byKey.erase frame.key
          else backlog.byKey
        events := backlog.events.erase index
        frames := backlog.frames.erase index
        retired := backlog.retired ++ [frame] } index

/-- Remove frames from the front for as long as a condition on the first one holds; the fuel is the
number of frames. -/
def pruneWhile (condition : Backlog → QueuedTelemetryFrame → Bool) : ℕ → Backlog → Backlog
  | 0, backlog => backlog
  | fuel + 1, backlog =>
    match backlog.frames.first? with
    | none => backlog
    | some (index, frame) =>
      if condition backlog frame then pruneWhile condition fuel (backlog.removeLocked index) else backlog

/-- A frame is past its retention age. -/
def expired (retentionS now : ℤ) (frame : QueuedTelemetryFrame) : Bool :=
  decide (retentionS > 0 ∧ now - frame.queuedEpochS.toInt > retentionS)

/-- `PruneLocked`: drop frames past retention, then the oldest ones until the rest fits. -/
def pruneLocked (backlog : Backlog) (retentionS : ℤ) (maxBytes : ℕ) (now : ℤ) : Backlog :=
  let recent := backlog.pruneWhile (fun _ frame => expired retentionS now frame) backlog.frames.size
  if maxBytes = 0 then recent
  else recent.pruneWhile (fun current _ => decide (current.liveBytes > maxBytes)) recent.frames.size

/-- The positions that a cumulative acknowledgement covers. -/
def ackedPositions (backlog : Backlog) (sessionId : List Char) (seq : UInt64) : List ℕ :=
  (backlog.frames.entries.filter fun entry =>
    entry.2.sessionId = sessionId ∧ entry.2.seq ≤ seq).map Prod.fst

/-- The position that an exact acknowledgement removes: the one indexed under the frame's key, if
its text is the same. -/
def exactPosition (backlog : Backlog) (frame : QueuedTelemetryFrame) : Option ℕ :=
  match backlog.byKey.lookup frame.key with
  | none => none
  | some index =>
    match backlog.frames.find? index with
    | none => none
    | some pending => if pending.frame ≠ frame.frame then none else some index

/-- The frame pending at a position. -/
def frameAt (backlog : Backlog) (index : ℕ) : Option QueuedTelemetryFrame := backlog.frames.find? index

/-- The oldest pending frames, at most so many. -/
def pendingFrames (backlog : Backlog) (maxFrames : ℕ) : List QueuedTelemetryFrame :=
  backlog.frames.values.take maxFrames

/-- The oldest pending pull events, at most so many. -/
def pendingEvents (backlog : Backlog) (maxFrames : ℕ) : Except MapError (List QueuedTelemetryFrame) :=
  ((backlog.events.entries.take maxFrames).map Prod.fst).mapM (fetch backlog.frames)

/-- The middle frame of the first run by length. -/
def nextReplay (backlog : Backlog) : Except MapError (Option QueuedTelemetryFrame) :=
  match backlog.runsByLength.first? with
  | none => .ok none
  | some (key, ()) => do
    let start := (ofLex key).2
    let stop ← fetch backlog.runs start
    let frame ← fetch backlog.frames (start + (stop - start) / 2)
    .ok (some frame)

/-- The positions of the pending frames. -/
def pending (backlog : Backlog) : Set ℕ := {index | ∃ frame, (index, frame) ∈ backlog.frames}

/-- The run tables hold the same runs. -/
def SameRuns (backlog : Backlog) : Prop :=
  ∀ key, (key, ()) ∈ backlog.runsByLength ↔
    ∃ start stop, (start, stop) ∈ backlog.runs ∧ key = lengthKey start stop

/-- The tables agree with the frames, and the frames with their positions. -/
structure Arranged (backlog : Backlog) : Prop where
  index_eq : ∀ index frame, (index, frame) ∈ backlog.frames → frame.index = index
  index_lt : ∀ index ∈ backlog.pending, index < backlog.nextIndex
  runs_iff : ∀ start stop, (start, stop) ∈ backlog.runs ↔ IsRun backlog.pending start stop
  same_runs : backlog.SameRuns
  events_iff : ∀ index, (index, ()) ∈ backlog.events ↔
    ∃ frame, (index, frame) ∈ backlog.frames ∧ frame.isEventFrame = true
  live_eq : backlog.liveBytes = (backlog.frames.values.map lineBytes).sum
  dead_eq : backlog.deadBytes = (backlog.retired.map lineBytes).sum

/-- The index by session and number holds exactly the pending frames. -/
def Keyed (backlog : Backlog) : Prop :=
  ∀ key index, backlog.byKey.lookup key = some index ↔
    ∃ frame, (index, frame) ∈ backlog.frames ∧ frame.key = key

end Backlog

end Coatheal.Queue
