import Coatheal.Fallback.Planner
import Coatheal.Motion.Rig

/-!
# The motors under the control loop

The deck is the rig with everything that commands it: the operator, the bend
sequences and the failsafe plan. A control tick goes through its sections in
order, and commands, pulses and changes inside the drivers come between any two
of them. A CHECK of a motor is such a change of its driver.
-/

namespace Coatheal.Motion

open Coatheal.Library Coatheal.Fallback

/-- One step of a bend sequence. -/
structure BendSequenceStep where
  targetUsteps : Int64
  holdS : ℚ
  speedHz : Option ℚ
deriving DecidableEq

/-- The bend sequences of one motor and how far the active one has come. -/
structure BendSequenceRuntime where
  definitions : String → Option (List BendSequenceStep) := fun _ => none
  activeName : String := ""
  stepIndex : ℕ := 0
  running : Bool := false
  paused : Bool := false
  stepQueued : Bool := false
  fault : String := ""

/-- A step as it is loaded: a field that is no number is absent, and so is a third field that is not
there. -/
structure StepSpec where
  target : Option Int64
  hold : Option ℚ
  speed : Option (Option ℚ)
deriving DecidableEq

/-- The limits the commands are held to. -/
structure DeckConfig where
  maxDirectUsteps : ℤ
  maxPositionSteps : ℤ
  effectiveMaxStepHz : ℚ
  stepsPerRev : ℤ
  leadMmPerRev : ℚ
  landedSafe : Bool
deriving DecidableEq

/-- The longest hold a command may ask for. -/
def kMaxHoldSeconds : ℚ := 86400

/-- The motors and what commands them. -/
structure Deck (n : ℕ) (δ : Type*) where
  cfg : DeckConfig
  mode : SystemMode
  linkLossFallbackActive : Bool
  linkLossFallbackWasActive : Bool
  rig : Rig (Fin n) ℚ δ
  zeroed : Fin n → Bool
  sequences : Fin n → BendSequenceRuntime
  planner : FallbackPlanner n
  landedSafed : Bool

/-- The commands that reach the motors. An argument that is no number is absent; an optional one that
was not given is absent as a whole. -/
inductive MotionCommand (n : ℕ) where
  | arm
  | disarm
  | enterSafe
  | exitSafe
  | forceStop
  | shutdownSafe
  | setPositionZero (motor : Fin n)
  | stepLossAck (motor : Fin n)
  | bendSeqLoad (motor : Fin n) (name : String) (specs : List (Option StepSpec))
  | bendSeqRun (motor : Fin n) (name : String)
  | bendSeqPause (motor : Fin n)
  | bendSeqResume (motor : Fin n)
  | bendSeqStop (motor : Fin n)
  | bendSeqClear (motor : Fin n) (name : Option String)
  | stepperMove (motor : Fin n) (steps : Option Int64)
  | stepperMoveTo (motor : Fin n) (steps : Option Int64) (hold : Option (Option ℚ))
  | stepperMoveMm (motor : Fin n) (mm : Option ℚ)
  | stepperMoveToMm (motor : Fin n) (mm : Option ℚ) (hold : Option (Option ℚ))
  | stepperRotate (motor : Fin n) (revs : Option ℚ)
  | stepperHome (motor : Fin n)
  | stepperStop (motor : Fin n)
  | stepperSetSpeed (motor : Fin n) (hz : Option ℚ)
  | stepperSetAccel (motor : Fin n) (accel : Option ℚ)
  | stepperSetCurrent (motor : Fin n) (aRms : Option ℚ)
  | stepperSetMicrostep (motor : Fin n) (divisor : Option ℤ)
  | stepperEnable (motor : Fin n)
  | stepperDisable (motor : Fin n)
  | pullArm (motor : Fin n)
  | pullExecute (motor : Fin n)
  | fallbackPlan (motor : Fin n) (target : Option Int64) (hold : Option ℚ) (speed : Option (Option ℚ))
  | fallbackArm
  | fallbackDisarm
deriving DecidableEq

/-- Free text without the delimiters of a reply. -/
def sanitizeForReply (text : String) : String :=
  text.map fun c => if c ∈ [';', ',', '\n', '\r'] then ' ' else c

/-- Why a command that needs a trusted position is refused. -/
def positionUncertainText (motor : ℕ) (reason : String) : String :=
  "position uncertain after a step-loss event" ++
    (if reason = "" then "" else " (" ++ reason ++ ")") ++
    ": check the mechanism then SET_POSITION_ZERO " ++ toString motor ++ " or STEPLOSS_ACK " ++
    toString motor

/-- Why a move in microsteps is refused that is longer than such a move may be. -/
def directCapText (cfg : DeckConfig) (what : String) : String :=
  "|" ++ what ++ "| exceeds stepper.max_direct_usteps (" ++ toString cfg.maxDirectUsteps ++
    " microsteps at the live divisor); use STEPPER_MOVE_MM or STEPPER_MOVETO_MM for longer travel"

/-- The speed ceiling in messages. -/
def speedCeilingText (shown : ℚ → String) (cfg : DeckConfig) : String :=
  shown cfg.effectiveMaxStepHz ++ " full-steps/s = " ++
    shown (cfg.effectiveMaxStepHz / (cfg.stepsPerRev : ℚ) * cfg.leadMmPerRev) ++ " mm/s at lead " ++
    shown cfg.leadMmPerRev ++ " mm/rev"

/-- A name of a sequence: letters, digits, underscores and dashes, at most 32. -/
def isSequenceNameValid (name : String) : Bool :=
  name.toList ≠ [] && name.toList.length ≤ 32 &&
    name.toList.all fun c => c.isAlphanum || c = '_' || c = '-'

/-- A speed of a sequence step or of the plan: absent, or within the ceiling. -/
def checkSpeed (cfg : DeckConfig) (refusal : String) : Option (Option ℚ) → Except String (Option ℚ)
  | none => .ok none
  | some none => .error refusal
  | some (some speed) =>
    if speed ≤ 0 ∨ cfg.effectiveMaxStepHz < speed then .error refusal else .ok (some speed)

/-- A step of a sequence to be loaded, if its fields are fit. -/
def checkStep (shown : ℚ → String) (cfg : DeckConfig) :
    Option StepSpec → Except String BendSequenceStep
  | none => .error "invalid sequence step"
  | some ⟨some target, some hold, speed⟩ =>
    if abs64 target.toInt > cfg.maxPositionSteps ∨ hold < 0 ∨ kMaxHoldSeconds < hold then
      .error "invalid sequence target/hold"
    else
      (checkSpeed cfg ("invalid sequence speed (0 < hz <= " ++ speedCeilingText shown cfg ++ ")")
        speed).map fun speed => ⟨target, hold, speed⟩
  | some _ => .error "invalid sequence target/hold"

/-- The steps of a sequence to be loaded, if all are fit. -/
def checkSteps (shown : ℚ → String) (cfg : DeckConfig) :
    List (Option StepSpec) → Except String (List BendSequenceStep)
  | [] => .ok []
  | spec :: rest => do
    let step ← checkStep shown cfg spec
    let steps ← checkSteps shown cfg rest
    return step :: steps

/-- A hold in seconds; one that was not given is zero. -/
def checkHold (invalid : String) : Option (Option ℚ) → Except String ℚ
  | none => .ok 0
  | some none => .error invalid
  | some (some hold) =>
    if hold < 0 ∨ kMaxHoldSeconds < hold then .error "invalid hold_s (0..86400)" else .ok hold

namespace BendSequenceRuntime

/-- The motor's sequence no longer runs; the definitions stay. -/
def stopped (runtime : BendSequenceRuntime) : BendSequenceRuntime :=
  { runtime with
    running := false, paused := false, stepQueued := false, activeName := "", stepIndex := 0, fault := "" }

/-- The sequence waits for the operator. -/
def pausedFor (runtime : BendSequenceRuntime) (fault : String) : BendSequenceRuntime :=
  { runtime with paused := true, fault := fault }

end BendSequenceRuntime

variable {n : ℕ} {δ : Type*}

/-- Why a motor that stands away from the target of its step has stopped. -/
def strayText (c : StepperChannel ℚ δ) : String :=
  if c.lastSource = "safety:STEPLOSS" then "step loss: " ++ sanitizeForReply c.stepLossReason
  else "motor stopped before target"

/-- What a sequence does at a tick: it commands no motor, or it sends its motor to a step. -/
inductive SequenceMove where
  | rest (after : BendSequenceRuntime)
  | send (after : BendSequenceRuntime) (step : BendSequenceStep)

/-- The steps of the sequence that is active. -/
def BendSequenceRuntime.steps (runtime : BendSequenceRuntime) : List BendSequenceStep :=
  (runtime.definitions runtime.activeName).getD []

/-- What a sequence does at a tick when its motor is busy or not and stands where it does. A step is
over when the motor is idle at its target. -/
def BendSequenceRuntime.nextMove (runtime : BendSequenceRuntime) (busy : Bool)
    (c : StepperChannel ℚ δ) : SequenceMove :=
  if runtime.running = false ∨ runtime.paused then .rest runtime
  else if runtime.steps = [] then
    .rest { runtime.pausedFor "active sequence definition missing" with running := false }
  else
    match runtime.steps[runtime.stepIndex]? with
    | none => .rest { runtime with running := false, stepQueued := false, activeName := "" }
    | some step =>
      if runtime.stepQueued then
        if busy then .rest runtime
        else if c.position ≠ step.targetUsteps.toInt then
          .rest { runtime.pausedFor (strayText c) with stepQueued := false }
        else
          let next := { runtime with stepIndex := runtime.stepIndex + 1, stepQueued := false }
          match runtime.steps[next.stepIndex]? with
          | none => .rest { next with running := false, activeName := "" }
          | some step => .send next step
      else .send runtime step

namespace Deck

/-- The motor is on its way or holds. -/
def busy (d : Deck n δ) (motor : Fin n) : Bool :=
  (d.rig.channels motor).moving || decide ((d.rig.channels motor).mode = .holding)

/-- A driver is there and works. -/
def healthy (hal : StepperDriver ℚ δ) (d : Deck n δ) (motor : Fin n) : Bool :=
  (d.rig.channels motor).driver.any hal.healthy

/-- There are motors, and all are healthy. -/
def allHealthy (hal : StepperDriver ℚ δ) (d : Deck n δ) : Bool :=
  decide (n ≠ 0) && (List.finRange n).all fun motor => d.healthy hal motor

/-- Put one motor's sequences in another state. -/
def setSequence (d : Deck n δ) (motor : Fin n) (runtime : BendSequenceRuntime) : Deck n δ :=
  { d with sequences := Function.update d.sequences motor runtime }

/-- Put one channel and the lock in another state. -/
def setChannel (d : Deck n δ) (motor : Fin n) (s : Locked (Fin n) ℚ δ) : Deck n δ :=
  { d with rig := ⟨s.lock, Function.update d.rig.channels motor s.channel⟩ }

/-- Carry out operations in order. -/
def operate (platform : Platform ℚ δ) (d : Deck n δ) (operations : List (Fin n × Operation ℚ δ)) :
    Deck n δ :=
  { d with rig := run (Rig.step platform) d.rig operations }

/-- Motion is refused outside RUN. -/
def needRun (d : Deck n δ) : Except String Unit :=
  if d.mode = .run then .ok () else .error "RUN mode required"

/-- Absolute motion is refused before the motor was zeroed. -/
def needZeroed (d : Deck n δ) (motor : Fin n) : Except String Unit :=
  if d.zeroed motor then .ok () else .error "motor must be zeroed first"

/-- Manual motion is refused during link-loss fallback. -/
def needLink (d : Deck n δ) : Except String Unit :=
  if d.linkLossFallbackActive then .error "manual motion blocked during link-loss fallback" else .ok ()

/-- Some motion is refused while the position is uncertain. -/
def needCertain (d : Deck n δ) (motor : Fin n) : Except String Unit :=
  if (d.rig.channels motor).positionUncertain then
    .error (sanitizeForReply (positionUncertainText motor (d.rig.channels motor).stepLossReason))
  else .ok ()

/-- An argument that has to be a number. -/
def need {α : Type*} (invalid : String) : Option α → Except String α
  | some value => .ok value
  | none => .error invalid

/-- The checks of a command before it has any effect. -/
def check (platform : Platform ℚ δ) (d : Deck n δ) : MotionCommand n → Except String Unit
  | .arm => if d.mode = .standby then .ok () else .error "ARM requires STANDBY mode"
  | .disarm => if d.mode = .run then .ok () else .error "DISARM requires RUN mode"
  | .exitSafe => if d.mode = .safe then .ok () else .error "not in SAFE mode"
  | .enterSafe | .forceStop | .shutdownSafe | .stepLossAck _ | .bendSeqStop _ | .stepperStop _
  | .stepperDisable _ | .fallbackDisarm => .ok ()
  | .setPositionZero motor =>
    if d.busy motor then .error "motor must be idle before zeroing" else .ok ()
  | .bendSeqLoad motor name specs => do
    if isSequenceNameValid name = false then .error "invalid sequence name"
    let _ ← checkSteps platform.shown d.cfg specs
    if (d.sequences motor).running ∧ (d.sequences motor).activeName = name then
      .error "cannot replace active sequence"
  | .bendSeqRun motor name => do
    d.needRun
    if d.linkLossFallbackActive then .error "cannot start sequence during link-loss fallback"
    d.needZeroed motor
    if (d.rig.channels motor).enabled = false then .error "motor must be enabled first"
    d.needCertain motor
    if ((d.sequences motor).definitions name).isNone then .error "unknown sequence"
    if (d.sequences motor).running then .error "sequence already running"
  | .bendSeqPause motor =>
    if (d.sequences motor).running then .ok () else .error "no sequence running"
  | .bendSeqResume motor => do
    d.needRun
    d.needZeroed motor
    d.needCertain motor
    if (d.sequences motor).running = false ∨ (d.sequences motor).paused = false then
      .error "sequence is not paused"
  | .bendSeqClear motor none =>
    if (d.sequences motor).running then .error "sequence running" else .ok ()
  | .bendSeqClear motor (some name) =>
    if (d.sequences motor).running ∧ (d.sequences motor).activeName = name then
      .error "cannot clear active sequence"
    else if ((d.sequences motor).definitions name).isNone then .error "unknown sequence"
    else .ok ()
  | .stepperMove _ steps => do
    let steps ← need "invalid steps" steps
    if abs64 steps.toInt > d.cfg.maxDirectUsteps then .error (directCapText d.cfg "steps")
    d.needRun
    d.needLink
  | .stepperMoveTo motor steps hold => do
    let steps ← need "invalid args" steps
    if hold = some none then .error "invalid args"
    if abs64 steps.toInt > d.cfg.maxDirectUsteps then .error (directCapText d.cfg "usteps")
    let _ ← checkHold "invalid args" hold
    d.needRun
    d.needZeroed motor
    d.needLink
  | .stepperMoveMm _ mm => do
    d.needRun
    d.needLink
    let _ ← need "invalid mm" mm
  | .stepperMoveToMm motor mm hold => do
    d.needRun
    d.needZeroed motor
    d.needLink
    let _ ← need "invalid mm" mm
    let _ ← checkHold "invalid hold" hold
  | .stepperRotate _ revs => do
    d.needRun
    d.needLink
    let _ ← need "invalid revs" revs
  | .stepperHome motor => do
    d.needRun
    d.needZeroed motor
    d.needLink
  | .stepperSetSpeed _ hz => do
    let _ ← need "invalid hz" hz
  | .stepperSetAccel _ accel => do
    let _ ← need "invalid accel" accel
  | .stepperSetCurrent _ aRms => do
    let aRms ← need "invalid current" aRms
    if aRms ≤ 0 ∨ 31 / 10 < aRms then .error "current must be in (0, 3.1] A RMS"
  | .stepperSetMicrostep _ divisor => do
    let _ ← need "invalid divisor" divisor
  | .stepperEnable _ => d.needRun
  | .pullArm motor | .pullExecute motor => do
    d.needRun
    d.needZeroed motor
    d.needLink
    d.needCertain motor
  | .fallbackPlan motor target hold speed => do
    let refusal := "invalid target (|usteps| must be <= stepper.max_position_steps)"
    let target ← need refusal target
    if abs64 target.toInt > d.cfg.maxPositionSteps then .error refusal
    let hold ← need "invalid hold_s (0..86400)" hold
    if hold < 0 ∨ kMaxHoldSeconds < hold then .error "invalid hold_s (0..86400)"
    let speed ← checkSpeed d.cfg
      ("invalid speed_hz (0 < hz <= " ++ speedCeilingText platform.shown d.cfg ++ ")") speed
    let _ ← d.planner.setMotorPlan motor.val target hold (speed.getD 0)
  | .fallbackArm => do
    let _ ← d.planner.arm

/-- What a command does to the channels, in order. -/
def operations : MotionCommand n → List (Fin n × Operation ℚ δ)
  | .disarm | .enterSafe | .forceStop => (List.finRange n).map fun motor => (motor, .stop)
  | .shutdownSafe =>
    (List.finRange n).flatMap fun motor => [(motor, .stop), (motor, .setEnabled false)]
  | .setPositionZero motor => [(motor, .setPositionZero)]
  | .stepLossAck motor => [(motor, .acknowledgeStepLoss)]
  | .bendSeqPause motor | .bendSeqStop motor | .stepperStop motor => [(motor, .stop)]
  | .stepperMove motor steps => [(motor, .moveSteps (steps.getD 0).toInt)]
  | .stepperMoveTo motor steps hold =>
    [(motor, .moveToSteps (steps.getD 0).toInt ((hold.getD none).getD 0))]
  | .stepperMoveMm motor mm => [(motor, .moveMillimeters mm)]
  | .stepperMoveToMm motor mm hold => [(motor, .moveToMillimeters mm ((hold.getD none).getD 0))]
  | .stepperRotate motor revs => [(motor, .rotate (revs.getD 0))]
  | .stepperHome motor => [(motor, .home)]
  | .stepperSetSpeed motor hz => [(motor, .setSpeed (hz.getD 0))]
  | .stepperSetAccel motor accel => [(motor, .setAccel accel)]
  | .stepperSetCurrent motor aRms => [(motor, .setRunCurrent (aRms.getD 0))]
  | .stepperSetMicrostep motor divisor => [(motor, .setMicrostep (divisor.getD 0))]
  | .stepperEnable motor => [(motor, .setEnabled true)]
  | .stepperDisable motor => [(motor, .setEnabled false)]
  | .pullArm motor | .pullExecute motor => [(motor, .armPullCycle)]
  | .arm | .exitSafe | .bendSeqLoad _ _ _ | .bendSeqRun _ _ | .bendSeqResume _ | .bendSeqClear _ _
  | .fallbackPlan _ _ _ _ | .fallbackArm | .fallbackDisarm => []

/-- What a command changes besides the channels. -/
def record (platform : Platform ℚ δ) (d : Deck n δ) : MotionCommand n → Deck n δ
  | .arm => { d with mode := .run }
  | .disarm | .exitSafe => { d with mode := .standby }
  | .enterSafe => { d with mode := .safe, sequences := fun motor => (d.sequences motor).stopped }
  | .forceStop | .shutdownSafe => { d with sequences := fun motor => (d.sequences motor).stopped }
  | .setPositionZero motor => { d with zeroed := Function.update d.zeroed motor true }
  | .bendSeqLoad motor name specs =>
    let runtime := d.sequences motor
    let steps := (checkSteps platform.shown d.cfg specs).toOption
    d.setSequence motor
      { runtime with definitions := Function.update runtime.definitions name steps }
  | .bendSeqRun motor name =>
    d.setSequence motor { d.sequences motor with
      activeName := name, stepIndex := 0, running := true, paused := false, stepQueued := false, fault := "" }
  | .bendSeqPause motor =>
    d.setSequence motor { (d.sequences motor).pausedFor "operator pause" with stepQueued := false }
  | .bendSeqResume motor =>
    d.setSequence motor { d.sequences motor with paused := false, stepQueued := false, fault := "" }
  | .bendSeqStop motor => d.setSequence motor (d.sequences motor).stopped
  | .bendSeqClear motor none =>
    d.setSequence motor { d.sequences motor with definitions := fun _ => none }
  | .bendSeqClear motor (some name) =>
    let runtime := d.sequences motor
    d.setSequence motor
      { runtime with definitions := Function.update runtime.definitions name none }
  | .fallbackPlan motor target hold speed =>
    match d.planner.setMotorPlan motor.val (target.getD 0) (hold.getD 0) ((speed.getD none).getD 0) with
    | .ok planner => { d with planner := planner }
    | .error _ => d
  | .fallbackArm =>
    match d.planner.arm with
    | .ok planner => { d with planner := planner }
    | .error _ => d
  | .fallbackDisarm => { d with planner := d.planner.disarm }
  | .stepLossAck _ | .stepperMove _ _ | .stepperMoveTo _ _ _ | .stepperMoveMm _ _
  | .stepperMoveToMm _ _ _ | .stepperRotate _ _ | .stepperHome _ | .stepperStop _ | .stepperSetSpeed _ _
  | .stepperSetAccel _ _ | .stepperSetCurrent _ _ | .stepperSetMicrostep _ _ | .stepperEnable _
  | .stepperDisable _ | .pullArm _ | .pullExecute _ => d

/-- A command is refused, or takes effect. -/
def obey (platform : Platform ℚ δ) (d : Deck n δ) (command : MotionCommand n) :
    Except String (Deck n δ) :=
  (d.check platform command).map fun _ => (d.record platform command).operate platform (operations command)

/-- The beginning of a tick: fallback is decided, and when it begins the motors that run no sequence
are stopped. -/
def startTick (platform : Platform ℚ δ) (d : Deck n δ) (linkLost : Bool) : Deck n δ :=
  let active : Bool := decide (d.mode = .run) && linkLost
  let stopping := (List.finRange n).filter fun motor => !(d.sequences motor).running
  let stopped :=
    if active ∧ d.linkLossFallbackWasActive = false then
      d.operate platform (stopping.map fun motor => (motor, .stop))
    else d
  { stopped with linkLossFallbackActive := active, linkLossFallbackWasActive := active }

/-- The answer of a channel to a bend that is lock-bound: another motor holds the motion lock. -/
def isLockRefusal (text : String) : Bool := text = "motion lock held by another motor"

/-- Set a speed, when there is one to set, and then send the motor to a position. -/
def sendTo (motor : Fin n) (s : Locked (Fin n) ℚ δ) (speed : Option ℚ) (target : Int64) (hold : ℚ) :
    Except String Unit × Locked (Fin n) ℚ δ :=
  match speed with
  | none => s.moveToSteps motor target.toInt hold
  | some hz =>
    match s.channel.setSpeed hz with
    | (.error text, c) => (.error text, ⟨s.lock, c⟩)
    | (.ok (), c) => Locked.moveToSteps motor ⟨s.lock, c⟩ target.toInt hold

/-- What the plan is told of a motor. -/
def planInput (hal : StepperDriver ℚ δ) (d : Deck n δ) (groupTempC : Fin n → Option ℚ)
    (motor : Fin n) : FallbackMotorInput :=
  let c := d.rig.channels motor
  let aborted := "safety:".toList.isPrefixOf c.lastSource.toList
  { enabled := c.enabled
    zeroed := d.zeroed motor
    healthy := d.healthy hal motor
    movingOrHolding := d.busy motor
    aborted := aborted
    abortReason :=
      if aborted = false then ""
      else if c.lastSource = "safety:OVERTEMP" then "driver over-temperature shutdown"
      else sanitizeForReply c.stepLossReason
    groupTempC := groupTempC motor }

/-- What the plan is told at a tick. -/
def planTickInput (hal : StepperDriver ℚ δ) (d : Deck n δ) (phase : MissionPhase) (now : ℤ)
    (groupTempC : Fin n → Option ℚ) : FallbackTickInput where
  fallbackActive := d.linkLossFallbackActive
  phase := phase
  now := now
  motors := List.ofFn (d.planInput hal groupTempC)

/-- The bend the plan wants to start, with the planner after the tick. -/
def planAction (hal : StepperDriver ℚ δ) (d : Deck n δ) (phase : MissionPhase) (now : ℤ)
    (groupTempC : Fin n → Option ℚ) : FallbackPlanner n × Option (FallbackAction n) :=
  d.planner.tick (d.planTickInput hal phase now groupTempC)

/-- Start a bend of the plan and tell the planner how it went. -/
def startBend (d : Deck n δ) (action : FallbackAction n) : Deck n δ :=
  let speed := if 0 < action.speedHz then some action.speedHz else none
  let (reply, after) :=
    sendTo action.motorId (d.rig.locked action.motorId) speed action.targetUsteps action.holdS
  let text := match reply with
    | .ok () => ""
    | .error text => text
  { d.setChannel action.motorId after with
    planner := d.planner.reportStartResult action.motorId.val reply.isOk (isLockRefusal text) text }

/-- On the ground without a link the motors are stopped and de-energised, once. -/
def applyLandedSafing (platform : Platform ℚ δ) (d : Deck n δ) : Deck n δ :=
  { d.operate platform ((List.finRange n).flatMap fun motor =>
      [(motor, .stop), (motor, .setEnabled false)]) with landedSafed := true }

/-- The failsafe plan's part of a tick. -/
def tickFallbackPlan (platform : Platform ℚ δ) (d : Deck n δ) (phase : MissionPhase) (now : ℤ)
    (groupTempC : Fin n → Option ℚ) : Deck n δ :=
  let (planner, action) := d.planAction platform.hal phase now groupTempC
  let planned := { d with planner := planner }
  let started := match action with
    | none => planned
    | some action => planned.startBend action
  if d.linkLossFallbackActive ∧ phase = .landed ∧ d.cfg.landedSafe ∧ d.landedSafed = false then
    started.applyLandedSafing platform
  else started

/-- Command a step of a sequence. While another motor holds the lock the step is tried again at the
next tick; any other refusal pauses the sequence. -/
def startStep (d : Deck n δ) (motor : Fin n) (runtime : BendSequenceRuntime)
    (step : BendSequenceStep) : Deck n δ :=
  match sendTo motor (d.rig.locked motor) step.speedHz step.targetUsteps step.holdS with
  | (.ok (), after) => (d.setChannel motor after).setSequence motor { runtime with stepQueued := true }
  | (.error text, after) =>
    (d.setChannel motor after).setSequence motor
      (if isLockRefusal text then runtime else runtime.pausedFor text)

/-- One motor's part of `TickBendSequences`. -/
def tickBendSequence (d : Deck n δ) (motor : Fin n) : Deck n δ :=
  match (d.sequences motor).nextMove (d.busy motor) (d.rig.channels motor) with
  | .rest runtime => d.setSequence motor runtime
  | .send runtime step => d.startStep motor runtime step

/-- The end of a tick: with a fault, a sequence that runs is paused and its motor stopped. -/
def pauseOnFault (platform : Platform ℚ δ) (d : Deck n δ) (overtemp : Bool) (motor : Fin n) : Deck n δ :=
  let runtime := d.sequences motor
  let healthy := d.allHealthy platform.hal
  if (healthy = false ∨ overtemp) ∧ runtime.running ∧ runtime.paused = false then
    let fault := if healthy then "overtemperature latch" else "stepper backend unhealthy"
    (d.setSequence motor { runtime.pausedFor fault with stepQueued := false }).operate platform
      [(motor, .stop)]
  else d

end Deck

/-- A command, a section of a control tick, a pulse, or a change inside a driver. -/
inductive DeckEvent (n : ℕ) (δ : Type*) where
  | command (command : MotionCommand n)
  | startTick (linkLost : Bool)
  | planTick (phase : MissionPhase) (now : ℤ) (groupTempC : Fin n → Option ℚ)
  | sequenceTick (motor : Fin n)
  | channelTick (motor : Fin n) (dt : ℚ) (now : ℤ)
  | faultTick (motor : Fin n) (overtemp : Bool)
  | pulse (motor : Fin n) (elapsed : ℚ)
  | driverChange (motor : Fin n) (after : δ)

namespace Deck

/-- The deck when the process starts. -/
def start (platform : Platform ℚ δ) (cfg : DeckConfig) (channel : Fin n → ChannelConfig ℚ)
    (driver : Fin n → Option δ) (planner : FallbackPlanner n) : Deck n δ where
  cfg := cfg
  mode := .standby
  linkLossFallbackActive := false
  linkLossFallbackWasActive := false
  rig := .start platform channel driver
  zeroed _ := false
  sequences _ := {}
  planner := planner
  landedSafed := false

/-- One event. A command that is refused changes nothing. -/
def step (platform : Platform ℚ δ) (d : Deck n δ) : DeckEvent n δ → Deck n δ
  | .command command =>
    match d.obey platform command with
    | .ok after => after
    | .error _ => d
  | .startTick linkLost => d.startTick platform linkLost
  | .planTick phase now groupTempC => d.tickFallbackPlan platform phase now groupTempC
  | .sequenceTick motor => d.tickBendSequence motor
  | .channelTick motor dt now => d.operate platform [(motor, .tick dt now)]
  | .faultTick motor overtemp => d.pauseOnFault platform overtemp motor
  | .pulse motor elapsed => d.operate platform [(motor, .pulse elapsed)]
  | .driverChange motor after => d.operate platform [(motor, .driverChange after)]

/-- Two motors can be addressed. -/
theorem benchAddressable : 2 ≤ 2 ^ 63 := by decide

/-- The two motors of the bench under the default limits. -/
def bench : Deck 2 SimulatedStepperDriver :=
  start SimulatedStepperDriver.platform ⟨1000, 200000, 100, 200, 2, true⟩ Rig.benchConfig Rig.benchDriver
    (.new {} benchAddressable)

end Deck

end Coatheal.Motion
