import Coatheal.Library.Numeric
import Coatheal.Motion.Lock

/-!
# One stepper channel

A channel owns one motor: its driver, its position count, the move in progress
and its share of the motion lock. Every operation runs under the channel's
mutex. The number type stands for the source's floating point and is taken as
exact; the driver is whatever its calls reply.
-/

namespace Coatheal.Motion

open Coatheal.Library

/-- What a channel calls on its driver. Every call may answer anything and change the driver. -/
structure StepperDriver (K δ : Type*) where
  enable : δ → Bool → Bool × δ
  step : δ → Bool → Bool × δ
  setMicrostep : δ → ℤ → δ
  healthy : δ → Bool
  activeCheck : δ → Bool × δ
  setRunCurrent : δ → K → Except String Unit × δ
  thermalState : δ → ℤ
  lastError : δ → String
  poll : δ → Bool × δ
  stepLossEvents : δ → UInt64
  stepLossReason : δ → String
  takeStepLossStop : δ → Bool × δ
  confirmTarget : δ → Bool × δ
  noteStepRate : δ → K → Bool → δ

/-- The configuration a channel is built from. -/
structure ChannelConfig (K : Type*) where
  fullStepsPerRev : ℤ
  maxStepHz : K
  defaultStepHz : K
  accelStepsPerS2 : K
  maxAccelStepsPerS2 : K
  leadMmPerRev : K
  microstep : ℤ
  maxPositionSteps : ℤ
  pullTravelFullSteps : ℤ
  pullHoldS : K
  enableOnBoot : Bool
  usePulseThread : Bool
  driverRetryMs : ℤ

/-- What the motor is doing. -/
inductive Mode where
  | idle
  | moving
  | holding
  | retracting
deriving DecidableEq, Repr

/-- The state of one channel. Positions are microsteps. -/
structure StepperChannel (K δ : Type*) where
  cfg : ChannelConfig K
  driver : Option δ
  position : ℤ
  target : ℤ
  stepHz : K
  currentStepHz : K
  microstep : ℤ
  enabled : Bool
  moving : Bool
  holdRemainingS : K
  lastSource : String
  mode : Mode
  lockHeld : Bool
  retractTarget : ℤ
  retractAfterHold : Bool
  fractionalSteps : K
  lastDriverRetry : ℤ
  driverLossSeen : UInt64
  stepLossEvents : UInt64
  positionUncertain : Bool
  stepLossReason : String

/-- A channel with the lock it shares. -/
structure Locked (ι K δ : Type*) where
  lock : MotionLock ι
  channel : StepperChannel K δ

/-- The divisors the chip has. -/
def isSupportedMicrostep (divisor : ℤ) : Bool :=
  divisor ∈ [(1 : ℤ), 2, 4, 8, 16, 32, 64, 128, 256]

/-- A supported divisor is at least one. -/
theorem isSupportedMicrostep_pos {divisor : ℤ} (h : isSupportedMicrostep divisor = true) : 0 < divisor := by
  unfold isSupportedMicrostep at h
  simp only [List.mem_cons, List.not_mem_nil, or_false, decide_eq_true_eq] at h
  omega

variable {ι K δ : Type*} [DecidableEq ι] [Field K] [LinearOrder K] [FloorRing K]

namespace StepperChannel

/-- A channel as it is constructed. -/
def new (hal : StepperDriver K δ) (cfg : ChannelConfig K) (driver : Option δ) : StepperChannel K δ :=
  let low := if cfg.defaultStepHz > cfg.maxStepHz then cfg.maxStepHz else cfg.defaultStepHz
  let start := if low ≤ 0 then cfg.maxStepHz else low
  let divisor := if isSupportedMicrostep cfg.microstep then cfg.microstep else 4
  let boot : Bool × Option δ := match driver with
    | none => (false, none)
    | some d =>
      let configured := hal.setMicrostep d divisor
      if cfg.enableOnBoot then
        let (ok, enabled) := hal.enable configured true
        (ok, some enabled)
      else (false, some configured)
  { cfg := { cfg with defaultStepHz := start }
    driver := boot.2
    position := 0
    target := 0
    stepHz := start
    currentStepHz := 0
    microstep := divisor
    enabled := boot.1
    moving := false
    holdRemainingS := 0
    lastSource := "init"
    mode := .idle
    lockHeld := false
    retractTarget := 0
    retractAfterHold := false
    fractionalSteps := 0
    lastDriverRetry := 0
    driverLossSeen := 0
    stepLossEvents := 0
    positionUncertain := false
    stepLossReason := "" }

/-- Bring a commanded speed into the allowed range. -/
def clampHz (c : StepperChannel K δ) (hz : K) : K :=
  let low := if hz < 0 then 0 else hz
  if low > c.cfg.maxStepHz then c.cfg.maxStepHz else low

/-- Microsteps for each millimetre of travel at the current divisor. -/
def ustepsPerMm (c : StepperChannel K δ) : K :=
  (c.cfg.fullStepsPerRev : K) * (c.microstep : K) / c.cfg.leadMmPerRev

/-- Follow the trapezoidal speed profile for `dt`; `sqrt` is the square root of the platform. -/
def updateRampSpeed (sqrt : K → K) (c : StepperChannel K δ) (dt : K) (remainingUsteps : ℤ) :
    StepperChannel K δ :=
  if dt ≤ 0 then c
  else if c.mode = .idle ∨ c.mode = .holding then { c with currentStepHz := 0 }
  else
    let brake := sqrt (max 0 (((2 : ℤ) : K) * c.cfg.accelStepsPerS2 *
      ((remainingUsteps : K) / ((max 1 c.microstep : ℤ) : K))))
    let cruiseOrBrake := min c.stepHz brake
    let ramped :=
      if c.currentStepHz < cruiseOrBrake then
        let faster := c.currentStepHz + c.cfg.accelStepsPerS2 * dt
        if faster > cruiseOrBrake then cruiseOrBrake else faster
      else if c.currentStepHz > cruiseOrBrake then
        let slower := c.currentStepHz - c.cfg.accelStepsPerS2 * dt
        if slower < cruiseOrBrake then cruiseOrBrake else slower
      else c.currentStepHz
    let low := if ramped < 0 then 0 else ramped
    { c with currentStepHz := if low > c.cfg.maxStepHz then c.cfg.maxStepHz else low }

/-- Count the driver's step-loss events since the last call; the result says whether the driver
asks for the move to be stopped. -/
def absorbDriverStepLoss (hal : StepperDriver K δ) (c : StepperChannel K δ) :
    Bool × StepperChannel K δ :=
  match c.driver with
  | none => (false, c)
  | some d =>
    let events := hal.stepLossEvents d
    let counted :=
      if events ≠ c.driverLossSeen then
        { c with
          stepLossEvents := c.stepLossEvents + (events - c.driverLossSeen)
          driverLossSeen := events
          positionUncertain := true
          stepLossReason := hal.stepLossReason d }
      else c
    let (stop, after) := hal.takeStepLossStop d
    (stop, { counted with driver := some after })

/-- A step-loss event the channel itself knows of. -/
def latchStepLoss (c : StepperChannel K δ) (reason : String) : StepperChannel K δ :=
  { c with stepLossEvents := c.stepLossEvents + 1, positionUncertain := true, stepLossReason := reason }

/-- Tell the driver the rate of the pulses to come, and whether it is the steady one. -/
def reportStepRateToDriver (hal : StepperDriver K δ) (c : StepperChannel K δ) : StepperChannel K δ :=
  match c.driver with
  | none => c
  | some d =>
    let steady : Bool := decide (c.currentStepHz > 0 ∧
      |c.currentStepHz - c.stepHz| ≤ billionth * max 1 c.stepHz)
    { c with driver := some (hal.noteStepRate d c.currentStepHz steady) }

/-- Clear the step-loss latch and keep the count. -/
def acknowledgeStepLoss (c : StepperChannel K δ) : StepperChannel K δ :=
  { c with positionUncertain := false, stepLossReason := "" }

/-- Set the commanded speed. -/
def setSpeed (c : StepperChannel K δ) (fullStepHz : K) : Except String Unit × StepperChannel K δ :=
  if fullStepHz ≤ 0 then (.error "step_hz must be > 0", c)
  else (.ok (), { c with stepHz := c.clampHz fullStepHz })

/-- Set the slope of the ramp; an argument that is not finite is absent. `shown` is the ceiling as
the message prints it. -/
def setAccel (shown : K → String) (c : StepperChannel K δ) (accel : Option K) :
    Except String Unit × StepperChannel K δ :=
  match accel with
  | none => (.error "accel must be > 0 full-steps/s^2", c)
  | some a =>
    if a ≤ 0 then (.error "accel must be > 0 full-steps/s^2", c)
    else if a > c.cfg.maxAccelStepsPerS2 then
      (.error ("accel exceeds stepper.max_accel_steps_per_s2 (" ++ shown c.cfg.maxAccelStepsPerS2 ++ ")"),
        c)
    else (.ok (), { c with cfg := { c.cfg with accelStepsPerS2 := a } })

/-- Change the run current, which the driver checks. -/
def setRunCurrent (hal : StepperDriver K δ) (c : StepperChannel K δ) (aRms : K) :
    Except String Unit × StepperChannel K δ :=
  match c.driver with
  | none => (.error "no driver", c)
  | some d =>
    let (reply, after) := hal.setRunCurrent d aRms
    (reply, { c with driver := some after })

/-- Change the microstep divisor and rescale the positions to keep the distances. -/
def setMicrostep (hal : StepperDriver K δ) (c : StepperChannel K δ) (divisor : ℤ) :
    Except String Unit × StepperChannel K δ :=
  if ¬ isSupportedMicrostep divisor then
    (.error "microstep must be 1, 2, 4, 8, 16, 32, 64, 128, or 256", c)
  else
    let configured := { c with driver := c.driver.map fun d => hal.setMicrostep d divisor }
    if configured.driver.any fun d => !hal.healthy d then
      (.error "driver microstep configuration failed", configured)
    else
      let rescaled :=
        if c.microstep ≠ divisor ∧ c.microstep > 0 then
          let scale : K := (divisor : K) / (c.microstep : K)
          { configured with
            position := llround ((c.position : K) * scale)
            target := llround ((c.target : K) * scale)
            retractTarget := llround ((c.retractTarget : K) * scale) }
        else configured
      (.ok (), { rescaled with microstep := divisor })

end StepperChannel

namespace Locked

open StepperChannel

/-- Free the lock if the channel believes to hold it. -/
def releaseLockIfHeld (motor : ι) (s : Locked ι K δ) : Locked ι K δ :=
  if s.channel.lockHeld then
    ⟨s.lock.release motor, { s.channel with lockHeld := false }⟩
  else s

/-- Take the lock unless the channel has it already. -/
def acquireLockForMotion (motor : ι) (s : Locked ι K δ) : Except String Unit × Locked ι K δ :=
  if s.channel.lockHeld then (.ok (), s)
  else
    match s.lock.tryAcquire motor with
    | (false, _) => (.error "motion lock held by another motor", s)
    | (true, taken) => (.ok (), ⟨taken, { s.channel with lockHeld := true }⟩)

/-- End the move or hold where it is and keep the motor enabled. -/
def abortMoveForStepLoss (motor : ι) (s : Locked ι K δ) : Locked ι K δ :=
  releaseLockIfHeld motor
    ⟨s.lock, { s.channel with
      target := s.channel.position
      retractTarget := s.channel.position
      moving := false
      mode := .idle
      holdRemainingS := 0
      retractAfterHold := false
      currentStepHz := 0
      fractionalSteps := 0
      lastSource := "safety:STEPLOSS" }⟩

/-- The end of a move whose driver refused a step: the motor is de-energised. A driver that said
why has already been counted. -/
def stepRefused (hal : StepperDriver K δ) (motor : ι) (s : Locked ι K δ) (d : δ) (counted : Bool) :
    Locked ι K δ :=
  let why := hal.lastError d
  let latched :=
    if counted then s.channel
    else s.channel.latchStepLoss ("motor disabled mid-move: " ++
      (if why.isEmpty then "the driver refused a step" else why))
  releaseLockIfHeld motor
    ⟨s.lock, { latched with
      driver := some (hal.enable d false).2
      enabled := false
      target := s.channel.position
      moving := false
      mode := .idle
      holdRemainingS := 0
      retractAfterHold := false
      lastSource := "safety:STEPLOSS" }⟩

/-- The loop of `IssuePulses`: one step each, until the driver asks to stop or refuses one. The
result counts the steps taken. -/
def issueLoop (hal : StepperDriver K δ) (motor : ι) (forward : Bool) :
    ℕ → ℤ → Locked ι K δ → ℤ × Locked ι K δ
  | 0, issued, s => (issued, s)
  | left + 1, issued, s =>
    match s.channel.driver with
    | none => (issued, s)
    | some d =>
      let (stepped, after) := hal.step d forward
      let (stop, absorbed) := absorbDriverStepLoss hal { s.channel with driver := some after }
      let counted : Bool := decide (absorbed.stepLossEvents ≠ s.channel.stepLossEvents)
      let moved :=
        if stepped then { absorbed with position := absorbed.position + if forward then 1 else -1 }
        else absorbed
      let issued := if stepped then issued + 1 else issued
      if stop then (issued, abortMoveForStepLoss motor ⟨s.lock, moved⟩)
      else if stepped then issueLoop hal motor forward left issued ⟨s.lock, moved⟩
      else
        match moved.driver with
        | none => (issued, ⟨s.lock, moved⟩)
        | some refusing => (issued, stepRefused hal motor ⟨s.lock, moved⟩ refusing counted)

/-- Step towards the target, by at most the allowed number of microsteps, and have the driver
confirm a target that was reached. -/
def issuePulses (hal : StepperDriver K δ) (motor : ι) (s : Locked ι K δ) (allowed : ℤ) :
    ℤ × Locked ι K δ :=
  let c := s.channel
  if c.driver.isNone ∨ ¬ c.enabled ∨ allowed ≤ 0 then (0, s)
  else if c.position = c.target then (0, s)
  else
    let forward : Bool := decide (c.target > c.position)
    let remaining := |c.target - c.position|
    let (issued, after) := issueLoop hal motor forward (min allowed remaining).toNat 0 s
    if issued > 0 ∧ after.channel.enabled ∧ after.channel.position = after.channel.target then
      let confirmed := { after.channel with driver := after.channel.driver.map fun d => (hal.confirmTarget d).2 }
      (issued, ⟨after.lock, (absorbDriverStepLoss hal confirmed).2⟩)
    else (issued, after)

end Locked

end Coatheal.Motion
