import Coatheal.Motion.Channel

/-!
# The operations of a channel

Commands set a target and take the motion lock; a tick or a pulse of the pulse
thread carries the move out and gives the lock back at its end. Each operation
is one atomic step on the channel and the lock it shares. Messages are the
source's own.
-/

namespace Coatheal.Motion

open Coatheal.Library

variable {ι K δ : Type*} [DecidableEq ι] [Field K] [LinearOrder K] [FloorRing K]

namespace Locked

open StepperChannel

/-- The common end of the commands that start a move: the lock is taken when the move needs it, and
then the channel is set. -/
def startMotion (motor : ι) (s : Locked ι K δ) (needsLock : Prop) [Decidable needsLock]
    (set : StepperChannel K δ → StepperChannel K δ) : Except String Unit × Locked ι K δ :=
  if needsLock then
    match s.acquireLockForMotion motor with
    | (.error e, refused) => (.error e, refused)
    | (.ok (), held) => (.ok (), ⟨held.lock, set held.channel⟩)
  else (.ok (), ⟨s.lock, set s.channel⟩)

/-- Move relative to the target of the move before. -/
def moveSteps (motor : ι) (s : Locked ι K δ) (delta : ℤ) : Except String Unit × Locked ι K δ :=
  if ¬ s.channel.enabled then (.error "channel disabled", s)
  else
    let newTarget := wrap64 (s.channel.target + delta)
    if abs64 newTarget > s.channel.cfg.maxPositionSteps then
      (.error "target exceeds max_position_steps", s)
    else
      startMotion motor s (newTarget ≠ s.channel.position) fun c =>
        { c with
          target := newTarget
          holdRemainingS := 0
          retractTarget := c.position
          retractAfterHold := false
          mode := if c.position ≠ newTarget then .moving else .idle
          moving := decide (c.position ≠ newTarget)
          lastSource := "cmd:MOVE" }

/-- Move to a position and hold there. -/
def moveToSteps (motor : ι) (s : Locked ι K δ) (absolute : ℤ) (hold : K) :
    Except String Unit × Locked ι K δ :=
  if ¬ s.channel.enabled then (.error "channel disabled", s)
  else if abs64 absolute > s.channel.cfg.maxPositionSteps then
    (.error "target exceeds max_position_steps", s)
  else if hold < 0 then (.error "hold must be >= 0", s)
  else
    startMotion motor s (s.channel.position ≠ absolute ∨ hold > 0) fun c =>
      { c with
        target := absolute
        holdRemainingS := hold
        retractTarget := c.position
        retractAfterHold := false
        mode := if c.position ≠ absolute then .moving else if hold > 0 then .holding else .idle
        moving := decide (c.position ≠ absolute)
        lastSource := "cmd:BEND" }

/-- Overwrite the source of the last accepted command. -/
def relabel (source : String) : Except String Unit × Locked ι K δ → Except String Unit × Locked ι K δ
  | (.ok (), s) => (.ok (), ⟨s.lock, { s.channel with lastSource := source }⟩)
  | refused => refused

/-- The microsteps of a distance, unless it is not finite or too large to convert. -/
def ustepsOf (c : StepperChannel K δ) (mm : Option K) : Except String ℤ :=
  match mm with
  | none => .error "distance must be finite"
  | some d =>
    let usteps := d * c.ustepsPerMm
    if |usteps| > 9000000000000000 then .error "distance too large" else .ok (llround usteps)

/-- Move by a distance; one that is not finite is absent. -/
def moveMillimeters (motor : ι) (s : Locked ι K δ) (deltaMm : Option K) :
    Except String Unit × Locked ι K δ :=
  match ustepsOf s.channel deltaMm with
  | .error e => (.error e, s)
  | .ok usteps => relabel "cmd:MOVE_MM" (s.moveSteps motor usteps)

/-- Move to a distance and hold there. -/
def moveToMillimeters (motor : ι) (s : Locked ι K δ) (absoluteMm : Option K) (hold : K) :
    Except String Unit × Locked ι K δ :=
  match ustepsOf s.channel absoluteMm with
  | .error e => (.error e, s)
  | .ok usteps => relabel "cmd:BEND_MM" (s.moveToSteps motor usteps hold)

/-- The microsteps of a number of revolutions. -/
def ustepsOfRevolutions (c : StepperChannel K δ) (revolutions : K) : ℤ :=
  llround (revolutions * (c.cfg.fullStepsPerRev : K) * (c.microstep : K))

/-- Move by a number of revolutions. -/
def rotate (motor : ι) (s : Locked ι K δ) (revolutions : K) : Except String Unit × Locked ι K δ :=
  if s.channel.cfg.fullStepsPerRev ≤ 0 then (.error "full_steps_per_rev invalid", s)
  else s.moveSteps motor (ustepsOfRevolutions s.channel revolutions)

/-- Move to position zero. -/
def home (motor : ι) (s : Locked ι K δ) : Except String Unit × Locked ι K δ :=
  if ¬ s.channel.enabled then (.error "channel disabled", s)
  else
    startMotion motor s (s.channel.position ≠ 0) fun c =>
      { c with
        target := 0
        holdRemainingS := 0
        retractTarget := 0
        retractAfterHold := false
        mode := if c.position ≠ 0 then .moving else .idle
        moving := decide (c.position ≠ 0)
        lastSource := "cmd:HOME" }

/-- Take the present position as zero. -/
def setPositionZero (motor : ι) (s : Locked ι K δ) : Locked ι K δ :=
  releaseLockIfHeld motor
    ⟨s.lock, { s.channel with
      position := 0
      target := 0
      retractTarget := 0
      holdRemainingS := 0
      fractionalSteps := 0
      currentStepHz := 0
      moving := false
      mode := .idle
      retractAfterHold := false
      lastSource := "cmd:ZERO"
      positionUncertain := false
      stepLossReason := "" }⟩

/-- Stop where the motor is. -/
def stop (motor : ι) (s : Locked ι K δ) : Locked ι K δ :=
  releaseLockIfHeld motor
    ⟨s.lock, { s.channel with
      target := s.channel.position
      retractTarget := s.channel.position
      holdRemainingS := 0
      moving := false
      fractionalSteps := 0
      currentStepHz := 0
      mode := .idle
      retractAfterHold := false
      lastSource := "cmd:STOP" }⟩

/-- Energise or de-energise the motor. A disable tears the channel down whatever the driver says. -/
def setEnabled (hal : StepperDriver K δ) (motor : ι) (s : Locked ι K δ) (enable : Bool) :
    Bool × Locked ι K δ :=
  match s.channel.driver with
  | none => (false, s)
  | some d =>
    let (driverOk, after) := hal.enable d enable
    let c := { s.channel with driver := some after }
    if ¬ enable then
      let latched :=
        if c.mode = .moving ∨ c.mode = .retracting then c.latchStepLoss "motor disabled while moving"
        else c
      (driverOk, releaseLockIfHeld motor
        ⟨s.lock, { latched with enabled := false, moving := false, mode := .idle, currentStepHz := 0 }⟩)
    else if ¬ driverOk then (false, ⟨s.lock, c⟩)
    else (true, ⟨s.lock, { c with enabled := true }⟩)

/-- Queue one pull: forward, hold, and back to zero. The lock is taken here even for a channel that
already moves, which is then refused. -/
def armPullCycle (motor : ι) (s : Locked ι K δ) : Except String Unit × Locked ι K δ :=
  if ¬ s.channel.enabled then (.error "channel disabled", s)
  else
    match s.lock.tryAcquire motor with
    | (false, _) => (.error "motion lock held by another motor", s)
    | (true, taken) =>
      let c := { s.channel with lockHeld := true, retractTarget := 0, retractAfterHold := true }
      let pullUsteps := c.cfg.pullTravelFullSteps * c.microstep
      if abs64 pullUsteps > c.cfg.maxPositionSteps then
        (.error "pull target exceeds max_position_steps", releaseLockIfHeld motor ⟨taken, c⟩)
      else
        (.ok (), ⟨taken, { c with
          target := pullUsteps
          holdRemainingS := c.cfg.pullHoldS
          mode := if c.position ≠ pullUsteps then .moving else .holding
          moving := decide (c.position ≠ pullUsteps)
          stepHz := c.cfg.maxStepHz
          lastSource := "cmd:PULL" }⟩)

/-- Milliseconds between two clock readings in nanoseconds, truncated. -/
def elapsedMs (now last : ℤ) : ℤ := Int.tdiv (now - last) 1000000

/-- The first part of a tick: an idle channel retries an unhealthy driver, and an energised one that
is not stepping polls it. A step loss found while holding ends the tick. -/
def tickDriver (hal : StepperDriver K δ) (motor : ι) (now : ℤ) (s : Locked ι K δ) :
    Bool × Locked ι K δ :=
  match s.channel.driver with
  | none => (false, s)
  | some d =>
    let c := s.channel
    if ¬ hal.healthy d ∧ c.mode = .idle then
      if c.lastDriverRetry = 0 ∨ elapsedMs now c.lastDriverRetry ≥ c.cfg.driverRetryMs then
        let (active, checked) := hal.activeCheck d
        let retried :=
          if active then
            let configured := hal.setMicrostep checked c.microstep
            if c.enabled then
              let (ok, enabled) := hal.enable configured true
              { c with lastDriverRetry := now, driver := some enabled, enabled := ok }
            else { c with lastDriverRetry := now, driver := some configured }
          else { c with lastDriverRetry := now, driver := some checked }
        (false, ⟨s.lock, (absorbDriverStepLoss hal retried).2⟩)
      else (false, s)
    else if c.enabled ∧ (c.mode = .idle ∨ c.mode = .holding) then
      let polled := (hal.poll (hal.noteStepRate d 0 false)).2
      let (lost, absorbed) := absorbDriverStepLoss hal { c with driver := some polled }
      if lost ∧ absorbed.mode = .holding then (true, abortMoveForStepLoss motor ⟨s.lock, absorbed⟩)
      else (false, ⟨s.lock, absorbed⟩)
    else (false, s)

/-- The second part of a tick: a driver that has shut down from heat is stopped and de-energised,
which ends the tick. -/
def tickThermal (hal : StepperDriver K δ) (motor : ι) (s : Locked ι K δ) : Bool × Locked ι K δ :=
  match s.channel.driver with
  | none => (false, s)
  | some d =>
    if s.channel.enabled ∧ hal.thermalState d ≥ 2 then
      let latched := s.channel.latchStepLoss
        "driver over-temperature shutdown: the chip cut its power stage"
      (true, releaseLockIfHeld motor
        ⟨s.lock, { latched with
          driver := some (hal.enable d false).2
          enabled := false
          target := s.channel.position
          retractTarget := s.channel.position
          moving := false
          mode := .idle
          holdRemainingS := 0
          retractAfterHold := false
          currentStepHz := 0
          fractionalSteps := 0
          lastSource := "safety:OVERTEMP" }⟩)
    else (false, s)

/-- A tick of a holding channel: count the hold down, and at its end retract or rest. -/
def tickHolding (motor : ι) (s : Locked ι K δ) (dt : K) : Locked ι K δ :=
  let c := { s.channel with holdRemainingS := max 0 (s.channel.holdRemainingS - dt) }
  if c.holdRemainingS ≤ 0 then
    if c.retractAfterHold then
      if c.position ≠ c.retractTarget then
        ⟨s.lock, { c with
          target := c.retractTarget
          mode := .retracting
          moving := true
          fractionalSteps := 0
          currentStepHz := 0 }⟩
      else
        releaseLockIfHeld motor
          ⟨s.lock, { c with
            target := c.retractTarget
            mode := .idle
            moving := false
            fractionalSteps := 0
            currentStepHz := 0
            retractAfterHold := false }⟩
    else
      releaseLockIfHeld motor
        ⟨s.lock, { c with mode := .idle, moving := false, fractionalSteps := 0, currentStepHz := 0 }⟩
  else ⟨s.lock, c⟩

/-- The end of a leg: a move with a hold starts to hold, everything else rests. -/
def endLeg (motor : ι) (s : Locked ι K δ) : Locked ι K δ :=
  if s.channel.mode = .moving ∧ s.channel.holdRemainingS > 0 then
    ⟨s.lock, { s.channel with mode := .holding }⟩
  else if s.channel.mode = .retracting then
    releaseLockIfHeld motor ⟨s.lock, { s.channel with mode := .idle, retractAfterHold := false }⟩
  else releaseLockIfHeld motor ⟨s.lock, { s.channel with mode := .idle }⟩

/-- The pulses due after `dt` on the ramp, with the fraction left over for the next tick. -/
def duePulses (hal : StepperDriver K δ) (sqrt : K → K) (c : StepperChannel K δ) (dt : K) :
    ℤ × StepperChannel K δ :=
  let ramped := reportStepRateToDriver hal (updateRampSpeed sqrt c dt |c.target - c.position|)
  let fractional := ramped.fractionalSteps + ramped.currentStepHz * (ramped.microstep : K) * dt
  let toIssue := max 0 (truncate fractional)
  (toIssue, { ramped with fractionalSteps := fractional - (toIssue : K) })

/-- A tick of a channel on its way: issue the pulses that are due, and end the leg when the target
is reached. -/
def tickPulses (hal : StepperDriver K δ) (sqrt : K → K) (motor : ι) (s : Locked ι K δ) (dt : K) :
    Locked ι K δ :=
  let (toIssue, c) := duePulses hal sqrt s.channel dt
  let (_, after) := issuePulses hal motor ⟨s.lock, c⟩ toIssue
  if after.channel.position ≠ after.channel.target then
    ⟨after.lock, { after.channel with moving := true }⟩
  else
    endLeg motor
      ⟨after.lock, { after.channel with moving := false, fractionalSteps := 0, currentStepHz := 0 }⟩

/-- The last part of a tick: what the mode asks for. -/
def tickMotion (hal : StepperDriver K δ) (sqrt : K → K) (motor : ι) (s : Locked ι K δ) (dt : K) :
    Locked ι K δ :=
  match s.channel.mode with
  | .holding => tickHolding motor s dt
  | .idle => ⟨s.lock, { s.channel with moving := false, currentStepHz := 0 }⟩
  | .moving | .retracting =>
    if s.channel.position = s.channel.target then
      endLeg motor ⟨s.lock, { s.channel with moving := false, currentStepHz := 0 }⟩
    else if s.channel.cfg.usePulseThread then ⟨s.lock, { s.channel with moving := true }⟩
    else tickPulses hal sqrt motor s dt

/-- One tick of the control loop for this channel. -/
def tick (hal : StepperDriver K δ) (sqrt : K → K) (motor : ι) (s : Locked ι K δ) (dt : K) (now : ℤ) :
    Locked ι K δ :=
  if dt ≤ 0 then s
  else
    match tickDriver hal motor now s with
    | (true, done) => done
    | (false, supervised) =>
      match tickThermal hal motor supervised with
      | (true, done) => done
      | (false, cool) => tickMotion hal sqrt motor cool dt

/-- The time the pulse thread's ramp integrates: never backwards, and capped after a hiccup. -/
def clampElapsed (elapsed : K) : K :=
  let low := if elapsed < 0 then 0 else elapsed
  if low > 1 / 20 then 1 / 20 else low

/-- One turn of the pulse thread's loop, `elapsed` seconds after the one before. -/
def pulse (hal : StepperDriver K δ) (sqrt : K → K) (motor : ι) (s : Locked ι K δ) (elapsed : K) :
    Locked ι K δ :=
  if s.channel.mode ≠ .moving ∧ s.channel.mode ≠ .retracting then s
  else if s.channel.target - s.channel.position = 0 then s
  else
    let c := updateRampSpeed sqrt s.channel (clampElapsed elapsed)
      |s.channel.target - s.channel.position|
    if c.currentStepHz * (c.microstep : K) < 1 then ⟨s.lock, c⟩
    else (issuePulses hal motor ⟨s.lock, reportStepRateToDriver hal c⟩ 1).2

end Locked

end Coatheal.Motion
