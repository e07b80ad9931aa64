import Coatheal.Fallback.Decision
import Coatheal.Fallback.PlanFile
import Coatheal.Library.Run

/-!
# The plan between its two threads and its file

The control loop ticks the planner, makes the start it asks for and reports the
result; the command thread loads, arms and disarms the plan. Each locks the
planner for one change at a time and afterwards calls
`PersistFallbackPlanIfDirty`, which takes the dirty mark and the text under the
lock and writes the file outside it. The steps of both come in any order, and a
restart may come between any two of them.
-/

namespace Coatheal.Fallback

open Coatheal.Library

/-- The commands that change the plan. -/
inductive PlanRequest where
  | plan
  | arm
  | disarm
deriving DecidableEq, Repr

/-- How far a thread has come in `PersistFallbackPlanIfDirty`. The file is empty when it has been
opened. -/
inductive Save where
  | due
  | opening (text : List Char)
  | writing (text : List Char)
deriving DecidableEq, Repr

/-- How far the control loop has come in its plan step. -/
inductive ControlPhase (n : ℕ) where
  | idle
  | starting (action : FallbackAction n)
  | started (action : FallbackAction n) (accepted retryLater : Bool) (error : String)
  | saving (save : Save)

/-- How far the command thread has come with a command it accepted. -/
inductive CommandPhase where
  | idle
  | saving (request : PlanRequest) (save : Save)
deriving DecidableEq, Repr

/-- The two threads that change the plan. -/
inductive PlanThread where
  | control
  | command
deriving DecidableEq, Repr

/-- The planner, its file and where the two threads stand. -/
structure PlanStore (n : ℕ) where
  planner : FallbackPlanner n
  file : Option (List Char)
  control : ControlPhase n
  command : CommandPhase

/-- One step of a thread, or a restart. A write may keep only the first characters of its text, as may
one that a restart cuts short. -/
inductive StoreEvent where
  | tick (input : FallbackTickInput)
  | move (accepted retryLater : Bool) (error : String)
  | report
  | plan (motorId : ℤ) (targetUsteps : Int64) (holdS speedHz : ℚ)
  | arm
  | disarm
  | take (thread : PlanThread)
  | openFile (thread : PlanThread) (opens : Bool)
  | writeFile (thread : PlanThread) (count : Option ℕ)
  | restart (keptByControl keptByCommand : ℕ)

variable {n : ℕ}

namespace FallbackPlanner

/-- `LoadFrom`: read the plan file, if there is one. -/
def loadFrom (p : FallbackPlanner n) : Option (List Char) → FallbackPlanner n
  | none => p.clearMotors.resetToNone
  | some text => (p.deserialize text).1

end FallbackPlanner

/-- Characters written over the beginning of a file. -/
def overlay (written : List Char) (file : Option (List Char)) : List Char :=
  written ++ (file.getD []).drop written.length

/-- What has been written of a text. -/
def kept (text : List Char) : Option ℕ → List Char
  | none => text
  | some count => text.take count

namespace PlanStore

/-- The planner after a start with what the file holds. -/
def boot (cfg : FallbackPlannerConfig) (addressable : n ≤ 2 ^ 63) (file : Option (List Char)) :
    PlanStore n where
  planner := (FallbackPlanner.new cfg addressable).loadFrom file
  file := file
  control := .idle
  command := .idle

/-- How far a thread has come in saving, if it is saving. -/
def save? (s : PlanStore n) : PlanThread → Option Save
  | .control =>
    match s.control with
    | .saving save => some save
    | _ => none
  | .command =>
    match s.command with
    | .saving _ save => some save
    | .idle => none

/-- Put a saving thread at another point of its save. -/
def setSave (s : PlanStore n) (save : Save) : PlanThread → PlanStore n
  | .control => { s with control := .saving save }
  | .command =>
    match s.command with
    | .saving request _ => { s with command := .saving request save }
    | .idle => s

/-- A thread has saved. The command thread acknowledges its command here. -/
def finish (s : PlanStore n) : PlanThread → PlanStore n
  | .control => { s with control := .idle }
  | .command => { s with command := .idle }

/-- The command thread has changed the planner. -/
def edit (s : PlanStore n) (request : PlanRequest) : Except String (FallbackPlanner n) → PlanStore n
  | .ok planner => { s with planner := planner, command := .saving request .due }
  | .error _ => s

/-- Under the lock: the dirty mark, and the text if it was set. -/
def take (s : PlanStore n) (thread : PlanThread) : PlanStore n :=
  if s.planner.dirty then
    { s with planner := s.planner.takeDirty.2 }.setSave (.opening s.planner.serialize) thread
  else s.finish thread

/-- Open the file, which empties it. One that cannot be opened stays as it is. -/
def openFile (s : PlanStore n) (thread : PlanThread) (text : List Char) (opens : Bool) : PlanStore n :=
  if opens then { s with file := some [] }.setSave (.writing text) thread else s.finish thread

/-- Write the text at the beginning of the file. -/
def writeFile (s : PlanStore n) (thread : PlanThread) (text : List Char) (count : Option ℕ) :
    PlanStore n :=
  { s with file := some (overlay (kept text count) s.file) }.finish thread

/-- What an unfinished write leaves in the file. -/
def cutShort (s : PlanStore n) (thread : PlanThread) (count : ℕ) (file : Option (List Char)) :
    Option (List Char) :=
  match s.save? thread with
  | some (.writing text) => some (overlay (text.take count) file)
  | _ => file

/-- The control loop's plan step up to the end of `Tick`. -/
def tick (s : PlanStore n) (input : FallbackTickInput) : PlanStore n :=
  { s with
    planner := (s.planner.tick input).1
    control := match (s.planner.tick input).2 with
      | some action => .starting action
      | none => .saving .due }

/-- One step. A step of a thread that stands elsewhere does not happen. -/
def step (s : PlanStore n) : StoreEvent → PlanStore n
  | .tick input =>
    match s.control with
    | .idle => s.tick input
    | _ => s
  | .move accepted retryLater error =>
    match s.control with
    | .starting action => { s with control := .started action accepted retryLater error }
    | _ => s
  | .report =>
    match s.control with
    | .started action accepted retryLater error =>
      { s with
        planner := s.planner.reportStartResult (action.motorId : ℤ) accepted retryLater error
        control := .saving .due }
    | _ => s
  | .plan motorId targetUsteps holdS speedHz =>
    match s.command with
    | .idle => s.edit .plan (s.planner.setMotorPlan motorId targetUsteps holdS speedHz)
    | _ => s
  | .arm =>
    match s.command with
    | .idle => s.edit .arm s.planner.arm
    | _ => s
  | .disarm =>
    match s.command with
    | .idle => s.edit .disarm (.ok s.planner.disarm)
    | _ => s
  | .take thread =>
    match s.save? thread with
    | some .due => s.take thread
    | _ => s
  | .openFile thread opens =>
    match s.save? thread with
    | some (.opening text) => s.openFile thread text opens
    | _ => s
  | .writeFile thread count =>
    match s.save? thread with
    | some (.writing text) => s.writeFile thread text count
    | _ => s
  | .restart keptByControl keptByCommand =>
    boot s.planner.cfg s.planner.addressable
      (s.cutShort .command keptByCommand (s.cutShort .control keptByControl s.file))

/-- The planner is one the onboard can have, started without a plan file. -/
def Reaches (cfg : FallbackPlannerConfig) (p : FallbackPlanner n) : Prop :=
  ∃ events, (run step (boot cfg p.addressable none) events).planner = p

/-- The command thread saves without hindrance. -/
def saved : List StoreEvent := [.take .command, .openFile .command true, .writeFile .command none]

/-- The link is lost in the float phase, and the only motor is ready. -/
def readyInFloat : FallbackTickInput where
  fallbackActive := true
  phase := .float
  motors := [{ enabled := true, zeroed := true, healthy := true, groupTempC := some 20 }]

end PlanStore

end Coatheal.Fallback
