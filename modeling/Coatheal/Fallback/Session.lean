import Coatheal.Fallback.Decision
import Coatheal.Fallback.PlanFile
import Coatheal.Library.Run
import Coatheal.Library.Trace

/-!
# The plan under its caller

The control loop ticks the planner, starts the bend it is told to start and
reports the result before it ticks again; the operator's commands and restarts
come at any time in between. A restart reads the plan file back into a new
planner. The log of what happened, the newest note first, and the in-window
ticks since the plan was last reset are kept for the statements only.
-/

namespace Coatheal.Fallback

open Coatheal.Library

/-- What the caller or the operator does next. -/
inductive Event where
  | tick (input : FallbackTickInput)
  | report (accepted retryLater : Bool) (error : String)
  | setMotorPlan (motorId : ℤ) (targetUsteps : Int64) (holdS speedHz : ℚ)
  | arm
  | disarm
  | restart (cfg : FallbackPlannerConfig)

/-- What the log remembers: bends started, put off and ended, and the operator's accepted edits. -/
inductive Note (n : ℕ) where
  | start (motor : Fin n)
  | retryLater (motor : Fin n)
  | ended (motor : Fin n)
  | plan (motor : Fin n) (whileArmed : Bool)
  | arm
  | disarm
deriving DecidableEq

/-- The planner, the start its caller has not answered yet, and the history. -/
structure Session (n : ℕ) where
  planner : FallbackPlanner n
  awaiting : Option (Fin n)
  log : List (Note n)
  windowTicks : List ℤ

/-- A done or failed bend has ended. -/
def FallbackMotorState.hasEnded (state : FallbackMotorState) : Bool :=
  state = .done || state = .failed

variable {n : ℕ}

/-- The bends that ended from one planner to the next. -/
def endedNotes (before after : FallbackPlanner n) : List (Note n) :=
  ((List.finRange n).filter fun i =>
    (after.motors i).state.hasEnded && !(before.motors i).state.hasEnded).map .ended

/-- The bend a tick started. -/
def startNotes : Option (FallbackAction n) → List (Note n)
  | some action => [.start action.motorId]
  | none => []

namespace Session

/-- A new planner and nothing yet. -/
def new (cfg : FallbackPlannerConfig) (addressable : n ≤ 2 ^ 63) : Session n :=
  ⟨.new cfg addressable, none, [], []⟩

/-- One event. The caller does not tick while it owes an answer, and answers only then. -/
def step (s : Session n) : Event → Session n
  | .tick input =>
    if s.awaiting.isSome then s
    else
      let (planner, action) := s.planner.tick input
      { planner := planner
        awaiting := action.map FallbackAction.motorId
        log := startNotes action ++ (endedNotes s.planner planner ++ s.log)
        windowTicks :=
          if (s.planner.track input).armed && input.windowPhase then s.windowTicks ++ [input.now]
          else s.windowTicks }
  | .report accepted retryLater error =>
    match s.awaiting with
    | none => s
    | some m =>
      let planner := s.planner.reportStartResult (m : ℤ) accepted retryLater error
      { s with
        planner := planner
        awaiting := none
        log := endedNotes s.planner planner ++
          ((if accepted = false ∧ retryLater then [.retryLater m] else []) ++ s.log) }
  | .setMotorPlan motorId targetUsteps holdS speedHz =>
    match FallbackPlanner.index motorId, s.planner.setMotorPlan motorId targetUsteps holdS speedHz with
    | some m, .ok planner =>
      { s with
        planner := planner
        log := .plan m (s.planner.state = .armed) :: s.log
        windowTicks := if planner.state = .none then [] else s.windowTicks }
    | _, _ => s
  | .arm =>
    match s.planner.arm with
    | .ok planner => { s with planner := planner, log := .arm :: s.log }
    | .error _ => s
  | .disarm =>
    { s with planner := s.planner.disarm, log := .disarm :: s.log, windowTicks := [] }
  | .restart cfg =>
    { planner := ((FallbackPlanner.new cfg s.planner.addressable).deserialize
        s.planner.serialize).1
      awaiting := none
      log := s.log
      windowTicks := [] }

end Session

/-- A Disarm, or a new plan for some motor while the plan is not armed. -/
def HasReset (since : List (Note n)) : Prop :=
  .disarm ∈ since ∨ ∃ k, .plan k false ∈ since

/-- The motor may bend once more: it got a new plan while the plan was armed, or the plan was reset
and then armed. -/
def Renewed (m : Fin n) (since : List (Note n)) : Prop :=
  .plan m true ∈ since ∨ ∃ newer older, since = newer ++ .arm :: older ∧ HasReset older

/-- A motor may start: since each earlier start it was put off or may bend once more, and since its
bend ended it may bend once more. -/
structure MayStart (m : Fin n) (log : List (Note n)) : Prop where
  afterStart : AfterEach (fun since => .retryLater m ∈ since ∨ Renewed m since) (.start m) log
  afterEnd : AfterEach (Renewed m) (.ended m) log

/-- Starts need permission, other notes do not. -/
def Note.Allowed : Note n → List (Note n) → Prop
  | .start m, log => MayStart m log
  | _, _ => True

/-- What has to hold when a tick starts a bend. The deadline counts from the first in-window tick,
which may be this one. -/
structure StartGuard (s : Session n) (input : FallbackTickInput) (action : FallbackAction n) :
    Prop where
  fallbackActive : input.fallbackActive = true
  phase : input.phase = .preFloat ∨ input.phase = .float
  armed : s.planner.state = .armed ∨ s.planner.state = .running
  configured : (s.planner.motors action.motorId).configured = true
  pending : (s.planner.motors action.motorId).state = .pending
  bend : action = ⟨action.motorId, (s.planner.motors action.motorId).targetUsteps,
    (s.planner.motors action.motorId).holdS, (s.planner.motors action.motorId).speedHz⟩
  enabled : (input.motor action.motorId).enabled = true
  zeroed : (input.motor action.motorId).zeroed = true
  healthy : (input.motor action.motorId).healthy = true
  noneRunning : ∀ j, ((s.planner.track input).motors j).state ≠ .running
  lowerSettled : ∀ j, j < action.motorId → (s.planner.motors j).configured = true →
    (((s.planner.tick input).1.motors j).state).isSettled = true
  warm : (∃ temp, (input.motor action.motorId).groupTempC = some temp ∧
      s.planner.cfg.bendMinC ≤ temp ∧ temp ≤ s.planner.cfg.bendMaxC) ∨
    ∃ first, (s.windowTicks ++ [input.now]).head? = some first ∧
      s.planner.cfg.bendDeadlineS ≤ ((input.now - first : ℤ) : ℚ) * billionth

/-- Every start so far was permitted, and whatever the next tick brings, it starts a bend only under
the guard. -/
structure Session.Safe (s : Session n) : Prop where
  lawful : Lawful Note.Allowed s.log
  guarded : ∀ input action, (s.planner.tick input).2 = some action → StartGuard s input action

/-- No start is reported as to be retried later once the plan is neither armed nor running. -/
def Session.NoLateRetry (s : Session n) : Event → Prop
  | .report accepted retryLater _ =>
    s.awaiting.isSome = true → accepted = false → retryLater = true → s.planner.armed = true
  | _ => True

end Coatheal.Fallback
