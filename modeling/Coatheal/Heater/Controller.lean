import Coatheal.Heater.Thermal
import Coatheal.Library.Decimal

/-!
# The control loop and the heater commands

A control tick takes the operator's overrides, regulates, lets a tune or a
heater test replace the requested duties, schedules and writes. The command
thread works on the same state under the same lock, so its commands come
between any two of these steps; each is checked first and takes effect later.
-/

namespace Coatheal.Heater

open Coatheal.Library Coatheal.Library.Text

/-- A heater test: until when a heater gets a duty. Times are nanoseconds of the steady clock. -/
structure HeaterTestRuntime where
  active : Bool := false
  heaterIndex : ℕ := 0
  duty : ℚ := 0
  untilNs : ℤ := 0
deriving DecidableEq

/-- The commands that reach the heaters. An argument that is no number is absent. -/
inductive Command where
  | heatersOff
  | resetCtrl
  | shutdownSafe
  | enterSafe
  | exitSafe
  | arm
  | disarm
  | armDebug (token : String)
  | disarmDebug
  | setHeaterDuty (index : Option ℕ) (duty : Option ℚ)
  | setAllDuty (duty : Option ℚ)
  | heaterTest (index : Option ℕ) (duty seconds : Option ℚ)
  | setPid (all : Bool) (index : Option ℕ) (kp ki kd : Option ℚ)
  | pidTuneStart (index : Option ℕ) (setpoint : Option ℚ) (relayDuty : Option (Option ℚ))
      (cycles : Option (Option ℕ))
  | pidTuneAbort
  | setTempTarget (index : Option ℕ) (target : Option ℚ)
  | setAllTempTargets (target : Option ℚ)
  | clearTempTarget (index : Option ℕ)
  | clearTempTargets
  | clearOverrides
  | setBenchMode (mode : String)
deriving DecidableEq

/-- What a control tick has fixed at its start. -/
structure TickContext (n : ℕ) where
  overrides : ControlOverrides n
  mode : SystemMode
  fallbackActive : Bool
  dt : ℚ
  tickStart : ℤ

/-- What the tune and the test made of the requested duties. -/
structure Arbitration (n : ℕ) where
  requested : Fin n → ℚ
  debugHeatRequested : Bool := false
  tuneActive : Bool := false
  tuneChannel : ℤ := -1
  tuneDuty : ℚ := 0

/-- How far the control tick has come. -/
inductive Stage (n : ℕ) where
  | idle
  | started (context : TickContext n)
  | regulated (context : TickContext n) (phase : MissionPhase) (snapshot : SensorSnapshot)
      (requested : Fin n → ℚ)
  | arbitrated (context : TickContext n) (phase : MissionPhase) (result : Arbitration n)

/-- No tick is under way. -/
def Stage.isIdle {n : ℕ} : Stage n → Bool
  | .idle => true
  | _ => false

/-- The part of the onboard controller that drives `n` heaters. The duties are the last ones written
to the outputs. -/
structure SystemController (n : ℕ) where
  config : HeaterConfig
  benchMode : Bool
  debugArmed : Bool
  mode : SystemMode
  thermal : ThermalController n
  scheduler : HeaterScheduler ℚ
  overrides : ControlOverrides n
  resetControl : Bool
  heaterTest : HeaterTestRuntime
  pidTuner : PidAutoTuner
  tuneChannel : ℤ
  lastSensorSnapshot : SensorSnapshot
  pending : Option Command
  stage : Stage n
  duty : Fin n → ℚ

variable {n : ℕ}

/-- Every duty and target override gone. -/
def ControlOverrides.clearHeat (o : ControlOverrides n) : ControlOverrides n :=
  { o with
    benchOpenLoopHeaters := false
    singleHeaterOverride := none
    allHeatersOverride := none
    heaterDutyOverrides := fun _ => none
    tempTargetsC := fun _ => none }

namespace SystemController

/-- The controller as the process starts. -/
def new (config : HeaterConfig) (power : PowerConfig ℚ) (benchMode : Bool) : SystemController n where
  config := config
  benchMode := benchMode
  debugArmed := false
  mode := .standby
  thermal := .new config
  scheduler := .new power none
  overrides := {}
  resetControl := false
  heaterTest := {}
  pidTuner := {}
  tuneChannel := -1
  lastSensorSnapshot := {}
  pending := none
  stage := .idle
  duty _ := 0

/-- Bench mode with the debug arm. -/
def requireDebugArm (c : SystemController n) : Bool := c.benchMode && c.debugArmed

/-- Switch the heaters off and drop every test and override. -/
def heatersOff (c : SystemController n) : SystemController n :=
  { c with
    overrides := { c.overrides.clearHeat with heatersOff := true }
    heaterTest := { c.heaterTest with active := false } }

/-- Why a heater's temperature is not available, when it is not. -/
def temperatureFault (c : SystemController n) (heater : ℕ) : Option String :=
  let sample := c.config.sensorChannel heater
  let start := "heater " ++ toString heater ++ " temperature unavailable (sample " ++ toString sample
  if c.lastSensorSnapshot.sampleTempsC.length ≤ sample then some (start ++ " has no reading)")
  else if (c.lastSensorSnapshot.reading sample).isNone then some (start ++ " invalid)")
  else none

/-- Why some heater's temperature is not available, when one is not. -/
def anyTemperatureFault (c : SystemController n) : Option String :=
  (List.finRange n).findSome? fun i => c.temperatureFault i

/-- A duty within the range and the power ceiling, or why it is refused. -/
def checkDuty (c : SystemController n) (duty : ℚ) : Except String Unit :=
  if duty < 0 ∨ 1 < duty then .error "duty out of range [0,1]"
  else if c.config.maxDuty < duty then
    .error ("duty exceeds heater.max_duty (" ++ String.ofList (formatF c.config.maxDuty) ++ ")")
  else .ok ()

/-- What a command that heats needs: RUN mode, and no tune running. -/
def checkHeatCommand (c : SystemController n) : Except String Unit :=
  if c.mode ≠ .run then .error "RUN mode required"
  else if c.pidTuner.active then .error "PID tune running; PID_TUNE_ABORT first"
  else .ok ()

/-- A heater that exists. -/
def checkIndex (n : ℕ) (index : Option ℕ) : Except String Unit :=
  match index with
  | some i => if i < n then .ok () else .error "heater index out of range"
  | none => .error "heater index out of range"

/-- A number inside a range, or the text of the refusal. -/
def checkRange (value : Option ℚ) (low high : ℚ) (text : String) : Except String Unit :=
  match value with
  | some value => if value < low ∨ high < value then .error text else .ok ()
  | none => .error text

/-- The checks a command passes before it takes effect. `motionHeld` says whether a motor holds the
lock. -/
def check (c : SystemController n) (motionHeld : Bool) : Command → Except String Unit
  | .heatersOff | .resetCtrl | .shutdownSafe | .clearTempTargets | .clearOverrides
  | .pidTuneAbort | .enterSafe => .ok ()
  | .exitSafe => if c.mode = .safe then .ok () else .error "not in SAFE mode"
  | .arm => if c.mode = .standby then .ok () else .error "ARM requires STANDBY mode"
  | .disarm => if c.mode = .run then .ok () else .error "DISARM requires RUN mode"
  | .armDebug token =>
    if c.benchMode = false then .error "bench mode required"
    else if token ≠ c.config.debugArmCode then .error "invalid arm token"
    else .ok ()
  | .disarmDebug => if c.requireDebugArm then .ok () else .error "debug not armed"
  | .setHeaterDuty index duty => do
    c.checkHeatCommand
    match index, duty with
    | some index, some duty =>
      checkIndex n (some index)
      c.checkDuty duty
      match c.temperatureFault index with
      | some reason =>
        if 0 < duty ∧ c.requireDebugArm = false then
          .error (reason ++ "; use HEATER_TEST for bench-only open-loop output test")
        else .ok ()
      | none => .ok ()
    | _, _ => .error "invalid args"
  | .setAllDuty duty => do
    c.checkHeatCommand
    match duty with
    | some duty =>
      c.checkDuty duty
      match c.anyTemperatureFault with
      | some reason =>
        if 0 < duty ∧ c.requireDebugArm = false then
          .error (reason ++ "; SET_ALL_DUTY requires all heater temperatures")
        else .ok ()
      | none => .ok ()
    | none => .error "invalid duty"
  | .heaterTest index duty seconds =>
    if c.requireDebugArm = false then .error "bench debug arm required"
    else if c.pidTuner.active then .error "PID tune running; PID_TUNE_ABORT first"
    else if c.mode ≠ .run then .error "RUN mode required"
    else if motionHeld then .error "blocked during motor motion"
    else match index, duty, seconds with
      | some index, some duty, some seconds =>
        if n ≤ index then .error "invalid heater test args"
        else if duty < 0 ∨ c.config.debugMaxDuty < duty then
          .error "duty exceeds heater.debug_max_duty"
        else if c.config.maxDuty < duty then .error "duty exceeds heater.max_duty"
        else if seconds ≤ 0 ∨ c.config.debugMaxSeconds < seconds then
          .error "duration exceeds heater.debug_max_seconds"
        else .ok ()
      | _, _, _ => .error "invalid heater test args"
  | .setPid all index kp ki kd =>
    match kp, ki, kd with
    | some kp, some ki, some kd =>
      if kp < 0 ∨ ki < 0 ∨ kd < 0 then .error "invalid pid args"
      else if all then .ok ()
      else checkIndex n index
    | _, _, _ => .error "invalid pid args"
  | .pidTuneStart index setpoint relayDuty cycles => do
    if c.mode ≠ .run then .error "RUN mode required"
    checkIndex n index
    checkRange setpoint c.config.targetMinC c.config.targetMaxC
      "setpoint outside heater target limits"
    match relayDuty with
    | none => .ok ()
    | some none => .error "relay duty must be in (0, 1]"
    | some (some duty) =>
      if duty ≤ 0 ∨ 1 < duty then .error "relay duty must be in (0, 1]" else .ok ()
    match cycles with
    | none => .ok ()
    | some none => .error "cycles must be 1..10"
    | some (some cycles) =>
      if cycles < 1 ∨ 10 < cycles then .error "cycles must be 1..10" else .ok ()
    match c.temperatureFault (index.getD 0) with
    | some reason => .error reason
    | none => .ok ()
  | .setTempTarget index target => do
    c.checkHeatCommand
    match index, target with
    | some index, some target =>
      if n ≤ index then .error "invalid target args"
      checkRange (some target) c.config.targetMinC c.config.targetMaxC
        "target outside configured limits"
      match c.temperatureFault index with
      | some reason => .error reason
      | none => .ok ()
    | _, _ => .error "invalid target args"
  | .setAllTempTargets target => do
    c.checkHeatCommand
    checkRange target c.config.targetMinC c.config.targetMaxC "target outside configured limits"
    match c.anyTemperatureFault with
    | some reason => .error (reason ++ "; SET_ALL_TEMP_TARGETS requires all heater temperatures")
    | none => .ok ()
  | .clearTempTarget index => checkIndex n index
  | .setBenchMode mode =>
    if c.requireDebugArm = false then .error "debug arm required"
    else if mode = "ON" ∨ mode = "OFF" then .ok ()
    else .error "expected ON or OFF"

/-- What a command that passed its checks changes before it takes the lock: the mode, the debug arm
and the bench mode. -/
def enter (c : SystemController n) : Command → SystemController n
  | .enterSafe => { c with mode := .safe }
  | .exitSafe | .disarm => { c with mode := .standby }
  | .arm => { c with mode := .run }
  | .armDebug _ => { c with debugArmed := true }
  | .disarmDebug => { c with debugArmed := false }
  | .setBenchMode mode => { c with benchMode := decide (mode = "ON") }
  | _ => c

/-- A command comes in; accepted, it is to take effect next. -/
def receive (c : SystemController n) (motionHeld : Bool) (command : Command) :
    Except String (SystemController n) :=
  (c.check motionHeld command).map fun _ => { c.enter command with pending := some command }

/-- Set one entry, when the index is in range. -/
def setAt {α : Type*} (values : Fin n → α) (index : Option ℕ) (value : α) : Fin n → α :=
  fun i => if index = some i.val then value else values i

/-- A heater the operator commands, or a latched one, cannot be tuned, nor one while a tune or a test
runs. -/
def checkTune (c : SystemController n) (heater : ℕ) : Except String Unit :=
  let overridden := c.overrides.allHeatersOverride.isSome ||
    (List.finRange n).any fun i => decide (i.val = heater) &&
      ((c.overrides.heaterDutyOverrides i).isSome || (c.overrides.tempTargetsC i).isSome)
  let latched := (List.finRange n).any fun i =>
    decide (i.val = heater) && c.thermal.channelLatched i
  if c.pidTuner.active then
    .error ("tune already running on H" ++ toString c.tuneChannel ++ "; PID_TUNE_ABORT first")
  else if c.heaterTest.active then .error "HEATER_TEST running"
  else if overridden then
    .error "duty/target override active on that heater; CLEAR_OVERRIDES first"
  else if latched then .error "overtemp latch tripped; RESET_CTRL first"
  else .ok ()

/-- The settings of a tune. -/
def tuneConfig (c : SystemController n) (setpoint : ℚ) (relayDuty : Option (Option ℚ))
    (cycles : Option (Option ℕ)) : TunerConfig where
  setpointC := setpoint
  relayDuty := min ((relayDuty.getD none).getD (1 / 2)) c.config.maxDuty
  cycles := ((cycles.getD none).getD 4 : ℕ)
  abortCeilingC := min (setpoint + 15) (c.config.maxSampleTempC - 5)

/-- The checks of a command that need the lock. -/
def checkLocked (c : SystemController n) : Command → Except String Unit
  | .pidTuneStart index _ _ _ => c.checkTune (index.getD 0)
  | .pidTuneAbort => if c.pidTuner.active then .ok () else .error "no tune running"
  | _ => .ok ()

/-- The effect of a command under the lock. -/
def effect (c : SystemController n) (now : ℤ) : Command → SystemController n
  | .heatersOff | .shutdownSafe | .enterSafe | .disarm => c.heatersOff
  | .resetCtrl => { c with
      resetControl := true
      heaterTest := { c.heaterTest with active := false }
      overrides := { c.overrides with benchOpenLoopHeaters := false } }
  | .exitSafe => { c with overrides := { c.overrides with heatersOff := false } }
  | .arm | .armDebug _ | .setBenchMode _ => c
  | .disarmDebug => { c with
      heaterTest := { c.heaterTest with active := false }
      overrides := { c.overrides with benchOpenLoopHeaters := false } }
  | .setHeaterDuty index duty => { c with overrides := { c.overrides with
      heatersOff := false
      benchOpenLoopHeaters := c.requireDebugArm
      singleHeaterOverride := none
      allHeatersOverride := none
      heaterDutyOverrides := setAt c.overrides.heaterDutyOverrides index duty
      tempTargetsC := setAt c.overrides.tempTargetsC index none } }
  | .setAllDuty duty => { c with overrides := { c.overrides.clearHeat with
      heatersOff := false
      benchOpenLoopHeaters := c.requireDebugArm
      allHeatersOverride := duty } }
  | .heaterTest index duty seconds => { c with
      overrides := { c.overrides with heatersOff := false }
      heaterTest := {
        active := true
        heaterIndex := index.getD 0
        duty := duty.getD 0
        untilNs := now + truncate (seconds.getD 0 * 1000000000) } }
  | .setPid all index kp ki kd =>
    let gains : PidGains := ⟨kp.getD 0, ki.getD 0, kd.getD 0⟩
    { c with overrides := { c.overrides with
      pidOverride := if all then some gains else c.overrides.pidOverride
      pidOverrides :=
        if all then fun _ => some gains
        else setAt c.overrides.pidOverrides index (some gains) } }
  | .pidTuneStart index setpoint relayDuty cycles => { c with
      tuneChannel := index.getD 0
      pidTuner := .start (c.tuneConfig (setpoint.getD 0) relayDuty cycles) ((now : ℚ) * billionth) }
  | .pidTuneAbort => { c with pidTuner := c.pidTuner.abort "aborted by operator" }
  | .setTempTarget index target => { c with overrides := { c.overrides with
      heatersOff := false
      benchOpenLoopHeaters := false
      allHeatersOverride := none
      heaterDutyOverrides := setAt c.overrides.heaterDutyOverrides index none
      tempTargetsC := setAt c.overrides.tempTargetsC index target } }
  | .setAllTempTargets target => { c with overrides := { c.overrides with
      heatersOff := false
      benchOpenLoopHeaters := false
      allHeatersOverride := none
      heaterDutyOverrides := fun _ => none
      tempTargetsC := fun _ => target } }
  | .clearTempTarget index => { c with overrides := { c.overrides with
      tempTargetsC := setAt c.overrides.tempTargetsC index none } }
  | .clearTempTargets => { c with overrides := { c.overrides with tempTargetsC := fun _ => none } }
  | .clearOverrides => { c with overrides := { c.overrides.clearHeat with
      heatersOff := false
      pidOverride := none
      pidOverrides := fun _ => none } }

/-- The command that was received takes effect, or is refused after all. -/
def carryOut (c : SystemController n) (now : ℤ) (command : Command) :
    Except String (SystemController n) :=
  (c.checkLocked command).map fun _ => c.effect now command

end SystemController

end Coatheal.Heater
