import Coatheal.Heater.Controller
import Coatheal.Library.Run

/-!
# The control tick

The tick is cut where it takes the lock: the overrides are copied, the sensors
are read and the duties regulated, a tune or a heater test is arbitrated, and
the scheduled duties are written. Commands, heater inhibitions of a motor start
and the landed safing come in between.
-/

namespace Coatheal.Heater

open Coatheal.Library

variable {n : ℕ}

namespace SystemController

/-- The tick begins: the overrides are copied and a queued reset is carried out. -/
def startTick (c : SystemController n) (linkLost : Bool) (dt : ℚ) (now : ℤ) : SystemController n :=
  { c with
    resetControl := false
    thermal := if c.resetControl then c.thermal.reset else c.thermal
    scheduler :=
      if c.resetControl ∧ c.scheduler.budgetExhausted then c.scheduler.reset else c.scheduler
    stage := .started ⟨c.overrides, c.mode, c.mode = .run && linkLost, dt, now⟩ }

/-- The overrides the thermal controller gets: the floor only in fallback, no heat outside RUN. -/
def effectiveControl (context : TickContext n) : ControlOverrides n :=
  { context.overrides with
    floorControlEnabled := context.fallbackActive
    heatersOff := context.overrides.heatersOff || decide (context.mode ≠ .run) }

/-- The sensors are read and the duties regulated. -/
def regulateTick (c : SystemController n) (context : TickContext n) (phase : MissionPhase)
    (snapshot : SensorSnapshot) : SystemController n :=
  let result := c.thermal.computeRequestedDuty c.config phase snapshot context.dt
    (effectiveControl context)
  { c with
    thermal := result.2
    lastSensorSnapshot := snapshot
    stage := .regulated context phase snapshot result.1 }

/-- The tune is ended by whatever could spoil it: leaving RUN, fallback, heaters off, its latch. -/
def abortTune (c : SystemController n) (context : TickContext n) : PidAutoTuner :=
  let latched := (List.finRange n).any fun i =>
    decide ((i.val : ℤ) = c.tuneChannel) && c.thermal.channelLatched i
  if context.mode ≠ .run then c.pidTuner.abort "left RUN mode"
  else if context.fallbackActive then c.pidTuner.abort "link-loss fallback engaged"
  else if context.overrides.heatersOff then c.pidTuner.abort "heaters commanded off"
  else if latched then c.pidTuner.abort "overtemp latch tripped"
  else c.pidTuner

/-- While a tune runs its relay duty is the only one. -/
def tickTune (c : SystemController n) (context : TickContext n) (snapshot : SensorSnapshot)
    (requested : Fin n → ℚ) : Arbitration n × PidAutoTuner :=
  if c.pidTuner.active then
    let temp := c.config.governing snapshot c.tuneChannel.toNat
    let (duty, tuner) := (c.abortTune context).tick temp.isSome (temp.getD 0)
      ((context.tickStart : ℚ) * billionth)
    if tuner.active then
      ({ requested := fun i => if (i.val : ℤ) = c.tuneChannel then duty else 0
         tuneActive := true
         tuneChannel := c.tuneChannel
         tuneDuty := duty }, tuner)
    else ({ requested := requested }, tuner)
  else ({ requested := requested }, c.pidTuner)

/-- The heater test may go on. -/
def testAllowed (c : SystemController n) (context : TickContext n) (motionActive : Bool) (now : ℤ) :
    Bool :=
  c.requireDebugArm && decide (context.mode = .run) && !motionActive &&
    decide (now < c.heaterTest.untilNs)

/-- A heater test is in effect. -/
def testInEffect (c : SystemController n) (context : TickContext n) (motionActive : Bool)
    (now : ℤ) : Bool :=
  c.heaterTest.active && c.testAllowed context motionActive now

/-- The tune and then the heater test replace the requested duties. -/
def arbitrateTick (c : SystemController n) (context : TickContext n) (phase : MissionPhase)
    (snapshot : SensorSnapshot) (requested : Fin n → ℚ) (motionActive : Bool) (now : ℤ) :
    SystemController n :=
  let (tuned, tuner) := c.tickTune context snapshot requested
  let c := { c with pidTuner := tuner }
  if c.testInEffect context motionActive now then
    { c with stage := .arbitrated context phase { tuned with
        requested := fun i => if i.val = c.heaterTest.heaterIndex then c.heaterTest.duty else 0
        debugHeatRequested :=
          if c.heaterTest.heaterIndex < n then decide (0 < c.heaterTest.duty)
          else tuned.debugHeatRequested } }
  else
    { c with
      heaterTest := { c.heaterTest with active := false }
      stage := .arbitrated context phase tuned }

/-- Heat was asked for by hand: some override, a test, or a tune. -/
def manualHeatRequested (context : TickContext n) (result : Arbitration n) : Bool :=
  context.overrides.hasDirectOverride || context.overrides.anyTempTarget ||
    result.debugHeatRequested || result.tuneActive

/-- The duties the scheduler lets through; in bench open loop they are only clamped. -/
def scheduleTick (ranking : Ranking ℚ) (c : SystemController n) (context : TickContext n)
    (phase : MissionPhase) (result : Arbitration n) (motionActive : Bool) :
    List ℚ × HeaterScheduler ℚ :=
  let requested := List.ofFn result.requested
  let heatersAllowed := decide (context.mode = .run)
  if heatersAllowed ∧ c.requireDebugArm ∧ context.overrides.benchOpenLoopHeaters ∧
      result.tuneActive = false then
    (requested.map fun duty => clamp duty 0 1, c.scheduler)
  else
    c.scheduler.schedule ranking motionActive requested
      (heatersAllowed && (phase.flying || manualHeatRequested context result)) context.dt

/-- The scheduled duties are written, and a tune whose duty was cut is ended. -/
def outputTick (ranking : Ranking ℚ) (c : SystemController n) (context : TickContext n)
    (phase : MissionPhase) (result : Arbitration n) (motionActive : Bool) : SystemController n :=
  let (scheduled, scheduler) := c.scheduleTick ranking context phase result motionActive
  let cut := result.tuneActive && decide (0 ≤ result.tuneChannel) &&
    match scheduled[result.tuneChannel.toNat]? with
    | some duty => decide (duty + billionth < result.tuneDuty)
    | none => false
  { c with
    scheduler := scheduler
    pidTuner :=
      if cut then
        c.pidTuner.abort "scheduler clamped the tune duty (motion inhibit or power budget)"
      else c.pidTuner
    duty := fun i => clamp (scheduled.getD i 0) 0 1
    stage := .idle }

/-- A motor start writes zero to every heater. -/
def inhibitHeatersForMotion (c : SystemController n) : SystemController n :=
  { c with duty := fun _ => 0 }

end SystemController

/-- A step of the control loop or of the command thread. -/
inductive LoopEvent where
  | startTick (linkLost : Bool) (dt : ℚ) (now : ℤ)
  | regulate (phase : MissionPhase) (snapshot : SensorSnapshot)
  | arbitrate (motionActive : Bool) (now : ℤ)
  | output (motionActive : Bool)
  | landedSafing
  | inhibitHeaters
  | receive (motionHeld : Bool) (command : Command)
  | carryOut (now : ℤ)
deriving DecidableEq

namespace SystemController

/-- One step. A step out of turn does nothing: the tick goes through its stages in order, and a
command is received only when the one before has taken effect. -/
def step (ranking : Ranking ℚ) (c : SystemController n) : LoopEvent → SystemController n
  | .startTick linkLost dt now =>
    match c.stage with
    | .idle => c.startTick linkLost dt now
    | _ => c
  | .regulate phase snapshot =>
    match c.stage with
    | .started context => c.regulateTick context phase snapshot
    | _ => c
  | .arbitrate motionActive now =>
    match c.stage with
    | .regulated context phase snapshot requested =>
      c.arbitrateTick context phase snapshot requested motionActive now
    | _ => c
  | .output motionActive =>
    match c.stage with
    | .arbitrated context phase result => c.outputTick ranking context phase result motionActive
    | _ => c
  | .landedSafing =>
    match c.stage with
    | .idle => c.heatersOff
    | _ => c
  | .inhibitHeaters => c.inhibitHeatersForMotion
  | .receive motionHeld command =>
    match c.pending, c.receive motionHeld command with
    | none, .ok next => next
    | _, _ => c
  | .carryOut now =>
    match c.pending with
    | none => c
    | some command =>
      match c.carryOut now command with
      | .ok next => { next with pending := none }
      | .error _ => { c with pending := none }

end SystemController

end Coatheal.Heater
