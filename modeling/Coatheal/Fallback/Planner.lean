import Coatheal.Library.Numeric
import Coatheal.Mission

/-!
# The link-loss bend plan

The planner is pure: one tick input goes in, at most one bend to start comes
out, and the caller answers with the result of the start. Motors run in id
order, each once its group temperature is inside the window or the deadline
has passed.
-/

namespace Coatheal.Fallback

open Coatheal.Library

/-- The state of the whole plan. -/
inductive FallbackPlanState where
  | none
  | armed
  | running
  | done
  | failed
deriving DecidableEq, Repr

/-- The state of one motor's bend. -/
inductive FallbackMotorState where
  | unconfigured
  | pending
  | running
  | done
  | skipped
  | failed
deriving DecidableEq, Repr

/-- The temperature window in degrees and the time after which it no longer counts. -/
structure FallbackPlannerConfig where
  bendMinC : ℚ := -40
  bendMaxC : ℚ := 40
  bendDeadlineS : ℚ := 1800
deriving DecidableEq

/-- The bend planned for one motor. A speed of zero keeps the motor's present speed. -/
structure FallbackMotorPlan where
  configured : Bool := false
  targetUsteps : Int64 := 0
  holdS : ℚ := 0
  speedHz : ℚ := 0
  state : FallbackMotorState := .unconfigured
deriving DecidableEq

/-- What the caller knows of one motor at a tick. -/
structure FallbackMotorInput where
  enabled : Bool := false
  zeroed : Bool := false
  healthy : Bool := false
  movingOrHolding : Bool := false
  aborted : Bool := false
  abortReason : String := ""
  groupTempC : Option ℚ := none
deriving DecidableEq

/-- What the caller passes to a tick. Times are nanoseconds of the steady clock. -/
structure FallbackTickInput where
  fallbackActive : Bool := false
  phase : MissionPhase := .boot
  now : ℤ := 0
  motors : List FallbackMotorInput := []
deriving DecidableEq

/-- A bend to start now. -/
structure FallbackAction (n : ℕ) where
  motorId : Fin n
  targetUsteps : Int64
  holdS : ℚ
  speedHz : ℚ
deriving DecidableEq

/-- The planner of `n` motors. No vector has more than `2 ^ 63` elements. -/
structure FallbackPlanner (n : ℕ) where
  cfg : FallbackPlannerConfig
  motors : Fin n → FallbackMotorPlan
  ticksSinceStart : Fin n → ℤ
  state : FallbackPlanState
  deadlineStarted : Bool
  deadlineStart : ℤ
  lastError : String
  dirty : Bool
  addressable : n ≤ 2 ^ 63

/-- The state's name in messages and in the plan file. -/
def FallbackPlanState.toText : FallbackPlanState → String
  | .none => "none"
  | .armed => "armed"
  | .running => "running"
  | .done => "done"
  | .failed => "failed"

/-- The state's name in the plan file. -/
def FallbackMotorState.toText : FallbackMotorState → String
  | .unconfigured => "unconfigured"
  | .pending => "pending"
  | .running => "running"
  | .done => "done"
  | .skipped => "skipped"
  | .failed => "failed"

/-- A done, skipped or failed bend is settled. -/
def FallbackMotorState.isSettled (state : FallbackMotorState) : Bool :=
  state = .done || state = .skipped || state = .failed

/-- The phases the plan may run in, while the link is lost. -/
def FallbackTickInput.windowPhase (input : FallbackTickInput) : Bool :=
  input.fallbackActive && (input.phase = .preFloat || input.phase = .float)

/-- A motor the caller says nothing of is neither enabled nor moving. -/
def FallbackTickInput.motor (input : FallbackTickInput) (i : ℕ) : FallbackMotorInput :=
  input.motors.getD i {}

/-- Enabled, zeroed and healthy. -/
def FallbackMotorInput.ready (input : FallbackMotorInput) : Bool :=
  input.enabled && input.zeroed && input.healthy

/-- The group temperature is known and inside the window. -/
def FallbackMotorInput.windowOk (cfg : FallbackPlannerConfig) (input : FallbackMotorInput) : Bool :=
  match input.groupTempC with
  | some temp => cfg.bendMinC ≤ temp && temp ≤ cfg.bendMaxC
  | none => false

/-- The bend deadline has passed at a time, counted from another. -/
def FallbackPlannerConfig.deadlineReached (cfg : FallbackPlannerConfig) (start now : ℤ) : Bool :=
  cfg.bendDeadlineS ≤ ((now - start : ℤ) : ℚ) * billionth

namespace FallbackPlanner

variable {n : ℕ}

/-- A planner with no plan. -/
def new (cfg : FallbackPlannerConfig) (addressable : n ≤ 2 ^ 63) : FallbackPlanner n where
  cfg := cfg
  motors _ := {}
  ticksSinceStart _ := 0
  state := .none
  deadlineStarted := false
  deadlineStart := 0
  lastError := ""
  dirty := false
  addressable := addressable

/-- The motor an id stands for. -/
def index (motorId : ℤ) : Option (Fin n) :=
  if h : 0 ≤ motorId ∧ motorId.toNat < n then some ⟨motorId.toNat, h.2⟩ else none

/-- The plan is armed or running. -/
def armed (p : FallbackPlanner n) : Bool := p.state = .armed || p.state = .running

/-- Put one motor's plan in a new state. -/
def setMotorState (p : FallbackPlanner n) (i : Fin n) (state : FallbackMotorState) :
    FallbackPlanner n :=
  { p with motors := Function.update p.motors i { p.motors i with state := state } }

/-- Every configured motor is pending again and the plan is not armed. -/
def resetToNone (p : FallbackPlanner n) : FallbackPlanner n :=
  { p with
    state := .none
    deadlineStarted := false
    lastError := ""
    motors := fun i => { p.motors i with
      state := if (p.motors i).configured then .pending else .unconfigured }
    ticksSinceStart := fun _ => 0 }

/-- Forget every motor's plan. -/
def clearMotors (p : FallbackPlanner n) : FallbackPlanner n :=
  { p with motors := fun _ => {} }

/-- Load one motor's bend. -/
def setMotorPlan (p : FallbackPlanner n) (motorId : ℤ) (targetUsteps : Int64) (holdS speedHz : ℚ) :
    Except String (FallbackPlanner n) :=
  match index motorId with
  | none => .error "invalid motor id"
  | some i =>
    if p.state = .running then .error "plan running"
    else
      -- After a finished plan every motor is pending again and the plan must be armed on purpose.
      let p := if p.state = .done ∨ p.state = .failed then p.resetToNone else p
      .ok { p with
        motors := Function.update p.motors i ⟨true, targetUsteps, holdS, speedHz, .pending⟩
        ticksSinceStart := Function.update p.ticksSinceStart i 0
        dirty := true }

/-- Some motor has a plan. -/
def anyConfigured (p : FallbackPlanner n) : Bool :=
  (List.finRange n).any fun i => (p.motors i).configured

/-- Arm the plan. -/
def arm (p : FallbackPlanner n) : Except String (FallbackPlanner n) :=
  if p.anyConfigured = false then .error "no plan loaded"
  else if p.state = .running then .error "plan running"
  else if p.state = .done ∨ p.state = .failed then
    .error ("plan already " ++ p.state.toText ++ " (FALLBACK_DISARM to clear)")
  else .ok { p with state := .armed, lastError := "", dirty := true }

/-- Drop the arming and every result. -/
def disarm (p : FallbackPlanner n) : FallbackPlanner n :=
  { p.resetToNone with dirty := true }

/-- Every configured motor is settled. -/
def allSettled (p : FallbackPlanner n) : Bool :=
  (List.finRange n).all fun i => !(p.motors i).configured || (p.motors i).state.isSettled

/-- Some configured motor failed. -/
def anyFailed (p : FallbackPlanner n) : Bool :=
  (List.finRange n).any fun i => (p.motors i).configured && (p.motors i).state = .failed

/-- Completion tracking of one motor. Stopped is not the same as arrived: a bend that a safety
abort cut short has failed. -/
def trackOne (input : FallbackTickInput) (p : FallbackPlanner n) (i : Fin n) : FallbackPlanner n :=
  if (p.motors i).state = .running then
    let ticks := p.ticksSinceStart i + 1
    let p := { p with ticksSinceStart := Function.update p.ticksSinceStart i ticks }
    let motor := input.motor i
    if 1 ≤ ticks ∧ motor.movingOrHolding = false then
      if motor.aborted then
        let reason := if motor.abortReason = "" then "" else ": " ++ motor.abortReason
        { p.setMotorState i .failed with
          lastError := "M" ++ toString i.val ++ " bend aborted" ++ reason, dirty := true }
      else { p.setMotorState i .done with dirty := true }
    else p
  else p

/-- The plan ends when it settled: failed if a bend failed, else done. -/
def settle (p : FallbackPlanner n) : FallbackPlanner n :=
  if p.allSettled then
    { p with state := if p.anyFailed then .failed else .done, dirty := true }
  else p

/-- Completion tracking of every motor, in every phase, and the end of a running plan. -/
def track (p : FallbackPlanner n) (input : FallbackTickInput) : FallbackPlanner n :=
  let p := (List.finRange n).foldl (trackOne input) p
  if p.state = .running then p.settle else p

/-- The deadline clock starts with the first tick inside the window. -/
def startDeadline (p : FallbackPlanner n) (now : ℤ) : FallbackPlanner n :=
  if p.deadlineStarted then p else { p with deadlineStarted := true, deadlineStart := now }

/-- Some motor's bend runs. -/
def anyRunning (p : FallbackPlanner n) : Bool :=
  (List.finRange n).any fun i => (p.motors i).state = .running

/-- Start one motor's bend. -/
def begin (p : FallbackPlanner n) (i : Fin n) : FallbackPlanner n × FallbackAction n :=
  let plan := p.motors i
  ({ p.setMotorState i .running with
      state := .running
      ticksSinceStart := Function.update p.ticksSinceStart i 0
      dirty := true },
    ⟨i, plan.targetUsteps, plan.holdS, plan.speedHz⟩)

/-- The search for the motor to start, in id order: a motor that has to wait makes the next ones
wait too. -/
def startLoop (input : FallbackTickInput) (deadlinePassed : Bool) :
    List (Fin n) → FallbackPlanner n → FallbackPlanner n × Option (FallbackAction n)
  | [], p => (p.settle, none)
  | i :: rest, p =>
    let plan := p.motors i
    if plan.configured = false ∨ plan.state ≠ .pending then startLoop input deadlinePassed rest p
    else
      let motor := input.motor i
      if motor.ready ∧ (motor.windowOk p.cfg ∨ deadlinePassed) then
        ((p.begin i).1, some (p.begin i).2)
      else if motor.ready = false ∧ deadlinePassed then
        startLoop input deadlinePassed rest { p.setMotorState i .skipped with dirty := true }
      else (p, none)

/-- One tick: what the planner becomes, and the bend to start now. -/
def tick (p : FallbackPlanner n) (input : FallbackTickInput) :
    FallbackPlanner n × Option (FallbackAction n) :=
  let p := p.track input
  if p.armed = false then (p, none)
  else if input.windowPhase = false then (p, none)
  else
    let p := p.startDeadline input.now
    if p.anyRunning then (p, none)
    else
      startLoop input (p.deadlineStarted && p.cfg.deadlineReached p.deadlineStart input.now)
        (List.finRange n) p

/-- The caller's answer to a bend it was told to start. -/
def reportStartResult (p : FallbackPlanner n) (motorId : ℤ) (accepted retryLater : Bool)
    (error : String) : FallbackPlanner n :=
  match index motorId with
  | none => p
  | some i =>
    if accepted then p
    else if retryLater then
      let p := { p.setMotorState i .pending with
        ticksSinceStart := Function.update p.ticksSinceStart i 0 }
      let anyDone := (List.finRange n).any fun j => (p.motors j).state = .done
      { p with state := if anyDone then .running else .armed, dirty := true }
    else
      { p.setMotorState i .failed with
        state := .failed
        lastError := if error = "" then "start refused" else error
        dirty := true }

/-- Whether anything changed since the last call, and the planner with the mark cleared. -/
def takeDirty (p : FallbackPlanner n) : Bool × FallbackPlanner n :=
  (p.dirty, { p with dirty := false })

/-- The id of a motor stands for it. -/
@[simp]
theorem index_coe (i : Fin n) : index (i.val : ℤ) = some i := by
  simp [index]

/-- The plan is armed or running. -/
theorem armed_iff {p : FallbackPlanner n} :
    p.armed = true ↔ p.state = .armed ∨ p.state = .running := by
  simp [armed]

/-- Some motor has a plan. -/
theorem anyConfigured_iff {p : FallbackPlanner n} :
    p.anyConfigured = true ↔ ∃ i, (p.motors i).configured = true := by
  simp [anyConfigured]

/-- Only a plan at rest or already armed, with some motor configured, is armed. -/
theorem arm_ok {p q : FallbackPlanner n} (h : p.arm = .ok q) :
    p.anyConfigured = true ∧ (p.state = .none ∨ p.state = .armed) ∧
      q = { p with state := .armed, lastError := "", dirty := true } := by
  unfold arm at h
  split at h
  · cases h
  rename_i hconfigured
  split at h
  · cases h
  rename_i hrunning
  split at h
  · cases h
  rename_i hfinished
  cases h
  refine ⟨by simpa using hconfigured, ?_, rfl⟩
  cases hstate : p.state <;> simp_all

/-- A motor's plan is loaded into the plan at rest or armed as it stands, and into a finished one
after a reset. -/
theorem setMotorPlan_ok {p q : FallbackPlanner n} {i : Fin n} {motorId : ℤ} {targetUsteps : Int64}
    {holdS speedHz : ℚ} (hi : index motorId = some i)
    (h : p.setMotorPlan motorId targetUsteps holdS speedHz = .ok q) :
    p.state ≠ .running ∧ ∃ base : FallbackPlanner n,
      (base = p ∧ (p.state = .none ∨ p.state = .armed) ∨
        base = p.resetToNone ∧ (p.state = .done ∨ p.state = .failed)) ∧
      q = { base with
        motors := Function.update base.motors i ⟨true, targetUsteps, holdS, speedHz, .pending⟩
        ticksSinceStart := Function.update base.ticksSinceStart i 0
        dirty := true } := by
  unfold setMotorPlan at h
  rw [hi] at h
  simp only at h
  split at h
  · cases h
  rename_i hrunning
  refine ⟨hrunning, _, ?_, (Except.ok.inj h).symm⟩
  by_cases hfinished : p.state = .done ∨ p.state = .failed
  · rw [if_pos hfinished]
    exact Or.inr ⟨rfl, hfinished⟩
  · rw [if_neg hfinished]
    refine Or.inl ⟨rfl, ?_⟩
    cases hstate : p.state <;> simp_all

end FallbackPlanner

end Coatheal.Fallback
