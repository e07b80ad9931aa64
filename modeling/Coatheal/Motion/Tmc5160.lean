import Coatheal.Library.Run
import Coatheal.Motion.Channel
import Coatheal.Motion.Current

/-!
# The motor driver chip

The driver speaks to its chip over a bus that may fail or answer anything. It
moves the motor by rewriting the chip's target position, one microstep at a
time, restores a chip that was reset, records step losses and, while the motor
cruises, samples the load with StallGuard. What is printed is left out, and the
lines that select and enable the chip are part of the bus.
-/

namespace Coatheal.Motion

open Coatheal.Library

/-- The registers of the chip that the driver reads or writes. -/
inductive Register where
  | gconf | gstat | ioin | globalscaler | iholdIrun | tpowerdown | rampmode | xactual | vstart | a1 | v1
  | amax | vmax | dmax | d1 | vstop | xtarget | chopconf | coolconf | drvStatus
deriving DecidableEq, Repr

/-- What a stall leads to. -/
inductive StallDetect where
  | off
  | monitor
  | stop
deriving DecidableEq, Repr

/-- Where a chip reset was found. -/
inductive Found where
  | step
  | enable
  | idle
deriving DecidableEq, Repr

/-- Why steps may have been lost. -/
inductive StepLoss (K : Type*) where
  | shortCircuit (s2ga s2gb s2vsa s2vsb : Bool)
  | driverError
  | undervoltage
  | chipReset (found : Found)
  | position (actual target : ℤ)
  | stall (sg : ℤ) (stepRateHz : K)

/-- The settings the driver reads. -/
structure Tmc5160Config (K : Type*) where
  invertDirection : Bool
  holdCurrentFrac : K
  senseResistorOhm : K
  stealthChop : Bool
  stallDetect : StallDetect
  stallguardSgt : ℤ
  stallSgMin : ℤ
  stallMinStepHz : K
  stallConfirmSamples : ℤ
  verifyEnableLine : Bool

/-- What the driver calls outside itself: the bus with its lines, whose every call may fail, and the
square root. A reply comes with the chip's status byte. -/
structure ChipPlatform (K β : Type*) where
  available : β → Bool × β
  isOpen : β → Bool
  read : β → Register → Option (BitVec 32 × BitVec 8) × β
  write : β → Register → BitVec 32 → Option (BitVec 8) × β
  setEnableLine : β → Bool → Bool × β
  sqrt : K → K

/-- What the driver keeps about the chip. Two fields are for the record only: the stops that were
requested and the registers that were written, the newest last. -/
structure ChipSide (K β : Type*) where
  bus : β
  healthy : Bool
  enabled : Bool
  microstep : ℤ
  target : ℤ
  pulses : ℕ
  runCurrentARms : K
  enableLineEffective : Bool
  resetCount : ℕ
  stepsSinceResetCheck : ℕ
  otpwNow : Bool
  otLatched : Bool
  otpwEvents : ℕ
  lastSpiStatus : BitVec 8
  stepLossCount : UInt64
  stepLossReason : Option (StepLoss K)
  stepLossStop : Bool
  statusHoldoffSteps : ℕ
  uvCpActive : Bool
  drvErrActive : Bool
  drvErrUnexplained : Bool
  shortActive : Bool
  openLoadActive : Bool
  uvCpEvents : ℕ
  shortEvents : ℕ
  openLoadEvents : ℕ
  xtargetRepairs : ℕ
  positionMismatchPolls : ℕ
  stopRequests : ℕ
  written : List (Register × BitVec 32)

/-- The StallGuard sampling. -/
structure StallSampling (K : Type*) where
  stepRateHz : K
  stepRateSteady : Bool
  moveOpen : Bool
  stepsSinceSgSample : ℕ
  sgSettleSamples : ℕ
  sgLowRun : ℤ
  sgSamples : ℕ
  sgLast : ℤ
  sgMin : ℤ
  stallVerdicts : ℕ

/-- The driver of one motor. -/
structure Tmc5160Driver (K β : Type*) where
  cfg : Tmc5160Config K
  chip : ChipSide K β
  sampling : StallSampling K

variable {K β : Type*} [Field K] [LinearOrder K] [FloorRing K]

/-- How far the target moves for one microstep; nothing for a divisor the chip does not have. -/
def deltaXtarget (divisor : ℤ) : ℤ := if isSupportedMicrostep divisor then 256 / divisor else 0

/-- The chopper settings, with the off time that runs or stops it. -/
def encodeChopconf (toff : BitVec 32) : BitVec 32 :=
  (2#32 <<< 15) ||| (4#32 <<< 4) ||| (toff &&& 0x0F#32)

/-- The StallGuard threshold with its filter. -/
def encodeCoolconf (sgt : ℤ) : BitVec 32 :=
  (1#32 <<< 24) ||| ((BitVec.ofInt 32 (clamp sgt (-64) 63) &&& 0x7F#32) <<< 16)

namespace ChipSide

/-- The driver takes the chip for broken. -/
def unhealthy (c : ChipSide K β) : ChipSide K β := { c with healthy := false }

/-- Read a register. -/
def readRegister (platform : ChipPlatform K β) (c : ChipSide K β) (register : Register) :
    Option (BitVec 32) × ChipSide K β :=
  match platform.read c.bus register with
  | (none, after) => (none, { c with bus := after })
  | (some (value, status), after) => (some value, { c with bus := after, lastSpiStatus := status })

/-- Write a register. -/
def writeRegister (platform : ChipPlatform K β) (c : ChipSide K β) (register : Register)
    (value : BitVec 32) : Bool × ChipSide K β :=
  let c := { c with written := c.written ++ [(register, value)] }
  match platform.write c.bus register value with
  | (none, after) => (false, { c with bus := after })
  | (some status, after) => (true, { c with bus := after, lastSpiStatus := status })

/-- Write registers one after the other, up to the first that fails. -/
def writeRegisters (platform : ChipPlatform K β) :
    List (Register × BitVec 32) → ChipSide K β → Bool × ChipSide K β
  | [], c => (true, c)
  | (register, value) :: rest, c =>
    match c.writeRegister platform register value with
    | (false, failed) => (false, failed.unhealthy)
    | (true, done) => writeRegisters platform rest done

/-- Read registers back, up to the first that does not hold what it should. -/
def verifyRegisters (platform : ChipPlatform K β) :
    List (Register × BitVec 32) → ChipSide K β → Bool × ChipSide K β
  | [], c => (true, c)
  | (register, value) :: rest, c =>
    match c.readRegister platform register with
    | (none, failed) => (false, failed.unhealthy)
    | (some held, done) =>
      if held = value then verifyRegisters platform rest done else (false, done.unhealthy)

/-- Count a step loss, and ask for the move to be stopped if it is to be. -/
def recordStepLoss (c : ChipSide K β) (reason : StepLoss K) (stop : Bool) : ChipSide K β :=
  { c with
    stepLossCount := c.stepLossCount + 1
    stepLossReason := some reason
    stepLossStop := stop || c.stepLossStop
    stopRequests := if stop then c.stopRequests + 1 else c.stopRequests }

/-- The general configuration: the quiet chopper or nothing. -/
def gconf (cfg : Tmc5160Config K) : BitVec 32 := if cfg.stealthChop then 4#32 else 0#32

/-- The chopper as the motor is: off while it is disabled. -/
def chopconf (c : ChipSide K β) : BitVec 32 := encodeChopconf (if c.enabled then 3#32 else 0#32)

/-- The whole configuration in the order it is written. -/
def configuration (cfg : Tmc5160Config K) (c : ChipSide K β) (scale : CurrentScale) :
    List (Register × BitVec 32) :=
  [(.gconf, gconf cfg), (.chopconf, c.chopconf), (.coolconf, encodeCoolconf cfg.stallguardSgt),
    (.globalscaler, BitVec.ofInt 32 (if scale.globalscaler ≥ 256 then 0 else scale.globalscaler)),
    (.iholdIrun, (BitVec.ofInt 32 scale.ihold &&& 0x1F#32) |||
      ((BitVec.ofInt 32 scale.irun &&& 0x1F#32) <<< 8) ||| (6#32 <<< 16)),
    (.tpowerdown, 10#32), (.rampmode, 0#32), (.vstart, 0#32), (.vstop, 10#32), (.a1, 0xFFFF#32),
    (.amax, 0xFFFF#32), (.v1, 0#32), (.d1, 0xFFFF#32), (.dmax, 0xFFFF#32), (.vmax, 102400#32),
    (.xactual, 0#32), (.xtarget, 0#32)]

/-- Write the configuration, read a part of it back and clear the chip's flags. -/
def configure (platform : ChipPlatform K β) (cfg : Tmc5160Config K) (c : ChipSide K β)
    (scale : CurrentScale) : Bool × ChipSide K β :=
  match writeRegisters platform (configuration cfg c scale) c with
  | (false, failed) => (false, failed)
  | (true, written) =>
    match verifyRegisters platform [(.gconf, gconf cfg), (.chopconf, c.chopconf)]
        { written with target := 0 } with
    | (false, failed) => (false, failed)
    | (true, verified) =>
      match verified.writeRegister platform .gstat 7#32 with
      | (false, failed) => (false, failed.unhealthy)
      | (true, done) =>
        (true, { done with
          healthy := true
          uvCpActive := false
          drvErrActive := false
          drvErrUnexplained := false
          positionMismatchPolls := 0 })

/-- Probe the chip and configure it; positions start at zero again. -/
def reinitialize (platform : ChipPlatform K β) (cfg : Tmc5160Config K) (c : ChipSide K β) :
    Bool × ChipSide K β :=
  match platform.available c.bus with
  | (false, after) => (false, unhealthy { c with bus := after })
  | (true, after) =>
    let c := { c with bus := after }
    if ¬ isSupportedMicrostep c.microstep then (false, c.unhealthy)
    else
      match c.readRegister platform .ioin with
      | (none, failed) => (false, failed.unhealthy)
      | (some ioin, probed) =>
        -- the version byte, and the strap that would take the motion from the step pins
        if ioin >>> 24 ≠ 0x30#32 ∨ ioin.getLsbD 6 then (false, probed.unhealthy)
        else
          match calculateCurrent platform.sqrt (some c.runCurrentARms) (some cfg.senseResistorOhm)
              (some cfg.holdCurrentFrac) with
          | none => (false, probed.unhealthy)
          | some scale => configure platform cfg probed scale

/-- The supply and the power stage of a chip that was not reset: each flag counts when it comes up. -/
def noteGstat (c : ChipSide K β) (gstat : BitVec 32) : ChipSide K β :=
  let uvCp := gstat.getLsbD 2
  let drvErr := gstat.getLsbD 1
  let counted :=
    if uvCp && !c.uvCpActive then
      let c := { c with uvCpEvents := c.uvCpEvents + 1 }
      if c.enabled then c.recordStepLoss .undervoltage false else c
    else c
  { counted with
    uvCpActive := uvCp
    drvErrUnexplained := (drvErr && !c.drvErrActive) || c.drvErrUnexplained
    drvErrActive := drvErr }

/-- Look whether the chip was reset, and restore it if it was. It fails only on the bus. -/
def recoverFromChipReset (platform : ChipPlatform K β) (cfg : Tmc5160Config K) (c : ChipSide K β)
    (found : Found) : Bool × ChipSide K β :=
  match c.readRegister platform .gstat with
  | (none, failed) => (false, failed.unhealthy)
  | (some gstat, c) =>
    if ¬ gstat.getLsbD 0 then
      let noted := c.noteGstat gstat
      let handled := gstat &&& 6#32
      if handled ≠ 0#32 then
        match noted.writeRegister platform .gstat handled with
        | (false, failed) => (false, failed.unhealthy)
        | (true, done) => (true, done)
      else (true, noted)
    else
      match reinitialize platform cfg { c with resetCount := c.resetCount + 1 } with
      | (false, failed) => (false, failed.unhealthy)
      | (true, restored) =>
        let restored := { restored with target := 0 }
        (true, if c.enabled then restored.recordStepLoss (.chipReset found) false else restored)

/-- One of the four flags of a short is up. -/
def shortNow (drv : BitVec 32) : Bool :=
  drv.getLsbD 12 || drv.getLsbD 13 || drv.getLsbD 27 || drv.getLsbD 28

/-- Take in the driver status but for StallGuard: heat, shorts, a power stage shut down for no reason
in sight, and open loads while stepping. -/
def noteDriverStatus (c : ChipSide K β) (stepping : Bool) (drv : BitVec 32) : ChipSide K β :=
  let otpw := drv.getLsbD 26
  let ot := drv.getLsbD 25
  let heat := { c with
    otpwEvents := if otpw && !c.otpwNow then c.otpwEvents + 1 else c.otpwEvents
    otpwNow := otpw
    otLatched := ot || c.otLatched }
  let short := shortNow drv
  let shorted :=
    if short && !heat.shortActive then
      let c := { heat with shortEvents := heat.shortEvents + 1 }
      if c.enabled then
        c.recordStepLoss (.shortCircuit (drv.getLsbD 27) (drv.getLsbD 28) (drv.getLsbD 12) (drv.getLsbD 13))
          (!stepping)
      else c
    else heat
  let latched := { shorted with shortActive := short || shorted.shortActive }
  let explained :=
    if latched.drvErrUnexplained then
      let c := { latched with drvErrUnexplained := false }
      if !short && !ot && !c.otLatched && c.enabled then c.recordStepLoss .driverError false else c
    else latched
  if stepping then
    let openLoad := drv.getLsbD 29 || drv.getLsbD 30
    { explained with
      openLoadEvents :=
        if openLoad && !explained.openLoadActive then explained.openLoadEvents + 1
        else explained.openLoadEvents
      openLoadActive := openLoad }
  else explained

/-- Compare the chip's position with the target at standstill; two mismatches in a row are a step
loss and leave the driver unhealthy. -/
def checkPosition (platform : ChipPlatform K β) (c : ChipSide K β) : ChipSide K β :=
  match c.readRegister platform .xactual with
  | (none, after) => after
  | (some xactual, c) =>
    let actual := xactual.toInt
    if actual = c.target then { c with positionMismatchPolls := 0 }
    else if c.positionMismatchPolls + 1 < 2 then
      { c with positionMismatchPolls := c.positionMismatchPolls + 1 }
    else
      unhealthy
        (recordStepLoss { c with positionMismatchPolls := 0 } (.position actual c.target) true)

/-- Freeze the motor where it is, and cut the chopper. -/
def freeze (platform : ChipPlatform K β) (c : ChipSide K β) : Bool × ChipSide K β :=
  match c.readRegister platform .xactual with
  | (none, failed) => (false, failed)
  | (some xactual, c) =>
    match c.writeRegister platform .xtarget xactual with
    | (false, failed) => (false, failed)
    | (true, c) => writeRegister platform { c with target := xactual.toInt } .chopconf (encodeChopconf 0#32)

/-- The enable line reaches the chip, as far as the driver is to look. -/
def seesEnable (platform : ChipPlatform K β) (cfg : Tmc5160Config K) (c : ChipSide K β) :
    Bool × ChipSide K β :=
  if cfg.verifyEnableLine then
    match c.readRegister platform .ioin with
    | (none, failed) => (false, failed)
    | (some ioin, c) => (!ioin.getLsbD 4, c)
  else (true, c)

end ChipSide

namespace StallSampling

/-- Nothing is known about a rate, and no move is open. -/
def new : StallSampling K := ⟨0, false, false, 0, 0, 0, 0, 0, 0, 0⟩

/-- The rate is steady and fast enough for StallGuard, which is on and has the chopper it needs. -/
def active (cfg : Tmc5160Config K) (s : StallSampling K) : Bool :=
  decide (cfg.stallDetect ≠ .off) && !cfg.stealthChop && s.stepRateSteady &&
    decide (s.stepRateHz ≥ cfg.stallMinStepHz)

/-- Take in the rate of the pulses to come; a rate that is not positive ends the move. -/
def noteStepRate (cfg : Tmc5160Config K) (s : StallSampling K) (fullStepHz : K) (steady : Bool) :
    StallSampling K :=
  if ¬ fullStepHz > 0 then
    { s with stepRateHz := 0, stepRateSteady := false, moveOpen := false, sgLowRun := 0 }
  else
    let opened :=
      if ¬ s.moveOpen then
        { s with
          moveOpen := true
          sgSamples := 0
          sgLast := 0
          sgMin := 0
          sgLowRun := 0
          stepsSinceSgSample := 0 }
      else s
    let wasActive := opened.active cfg
    let told := { opened with stepRateHz := fullStepHz, stepRateSteady := steady }
    let active := told.active cfg
    if active && !wasActive then
      -- the filter still holds the end of the ramp: the first sample is skipped
      { told with stepsSinceSgSample := 0, sgSettleSamples := 1, sgLowRun := 0 }
    else if !active then { told with sgLowRun := 0 }
    else told

/-- Whether the step to come takes a sample: one does for each electrical period of the cruise. -/
def due (cfg : Tmc5160Config K) (s : StallSampling K) (microstep : ℤ) : Bool × StallSampling K :=
  if s.active cfg then
    let interval := 4 * microstep
    if (s.stepsSinceSgSample + 1 : ℤ) ≥ interval then (true, { s with stepsSinceSgSample := 0 })
    else (false, { s with stepsSinceSgSample := s.stepsSinceSgSample + 1 })
  else (false, { s with stepsSinceSgSample := 0 })

/-- Take in a sample behind the settle time: the statistics and the run of low samples. -/
def counted (cfg : Tmc5160Config K) (s : StallSampling K) (sg : ℤ) : StallSampling K :=
  { s with
    sgLast := sg
    sgMin := if s.sgSamples = 0 ∨ sg < s.sgMin then sg else s.sgMin
    sgSamples := s.sgSamples + 1
    sgLowRun := if sg ≤ cfg.stallSgMin then s.sgLowRun + 1 else 0 }

end StallSampling

/-- The load measure in the driver status. -/
def sgResult (drv : BitVec 32) : ℤ := (drv &&& 0x3FF#32).toNat

namespace Tmc5160Driver

/-- Take a StallGuard sample: the first of a cruise is skipped, and as many low ones in a row as have
to confirm make a stall, which under the stop policy asks for the stop and refuses the step. -/
def sampleStallguard (d : Tmc5160Driver K β) (drv : BitVec 32) : Bool × Tmc5160Driver K β :=
  if d.sampling.sgSettleSamples > 0 then
    (true, { d with sampling := { d.sampling with sgSettleSamples := d.sampling.sgSettleSamples - 1 } })
  else
    let sg := sgResult drv
    let s := d.sampling.counted d.cfg sg
    if s.sgLowRun = d.cfg.stallConfirmSamples then
      let s := { s with stallVerdicts := s.stallVerdicts + 1 }
      if d.cfg.stallDetect = .stop then
        (false, { d with
          chip := d.chip.recordStepLoss (.stall sg s.stepRateHz) true
          sampling := { s with sgLowRun := 0 } })
      else (true, { d with sampling := s })
    else (true, { d with sampling := s })

/-- Read the driver status and act on it. It is false when the step in progress must not be issued;
a failed read is ignored. -/
def checkDriverStatus (platform : ChipPlatform K β) (d : Tmc5160Driver K β)
    (stepping sampleStallguard : Bool) : Bool × Tmc5160Driver K β :=
  match d.chip.readRegister platform .drvStatus with
  | (none, after) => (true, { d with chip := after })
  | (some drv, after) =>
    let noted := { d with chip := after.noteDriverStatus stepping drv }
    if ChipSide.shortNow drv && stepping then (false, noted)
    else if sampleStallguard then noted.sampleStallguard drv
    else (true, noted)

/-- The first part of a step: whether it takes a sample, and whether it looks for a reset. -/
def beginStep (d : Tmc5160Driver K β) : Bool × Bool × Tmc5160Driver K β :=
  let (sample, sampling) := d.sampling.due d.cfg d.chip.microstep
  let checks := d.chip.stepsSinceResetCheck + 1
  let supervise : Bool := decide (checks ≥ 64)
  (sample, supervise, { d with
    chip := { d.chip with
      positionMismatchPolls := 0
      stepsSinceResetCheck := if supervise then 0 else checks }
    sampling := sampling })

/-- Restore a chip that was reset. -/
def recover (platform : ChipPlatform K β) (d : Tmc5160Driver K β) (found : Found) :
    Bool × Tmc5160Driver K β :=
  let (ok, chip) := d.chip.recoverFromChipReset platform d.cfg found
  (ok, { d with chip := chip })

/-- The second part of a step: the look for a reset when it is due. -/
def superviseStep (platform : ChipPlatform K β) (d : Tmc5160Driver K β) (supervise : Bool) :
    Bool × Tmc5160Driver K β :=
  if supervise then d.recover platform .step else (true, d)

/-- The third part of a step: the look at the driver status when one of the two asks for it. -/
def inspectStep (platform : ChipPlatform K β) (d : Tmc5160Driver K β) (supervise sample : Bool) :
    Bool × Tmc5160Driver K β :=
  if supervise || sample then d.checkDriverStatus platform true sample else (true, d)

/-- The last part of a step: the chip's status byte, which came with the target, can call for the
look out of turn. -/
def heedStatus (platform : ChipPlatform K β) (d : Tmc5160Driver K β) : Bool × Tmc5160Driver K β :=
  if d.chip.statusHoldoffSteps > 0 then
    (true, { d with chip := { d.chip with statusHoldoffSteps := d.chip.statusHoldoffSteps - 1 } })
  else if d.chip.lastSpiStatus &&& 3#8 ≠ 0#8 then
    match recover platform { d with
        chip := { d.chip with statusHoldoffSteps := 8, stepsSinceResetCheck := 0 } } .step with
    | (false, failed) => (false, failed)
    | (true, restored) => restored.checkDriverStatus platform true false
  else (true, d)

/-- Write the next target position, and count the pulse when it was taken. -/
def advance (platform : ChipPlatform K β) (d : Tmc5160Driver K β) (directionForward : Bool) :
    Bool × Tmc5160Driver K β :=
  let physicalForward := directionForward != d.cfg.invertDirection
  let delta := deltaXtarget d.chip.microstep
  let next := Int.bmod (d.chip.target + if physicalForward then delta else -delta) (2 ^ 32)
  match d.chip.writeRegister platform .xtarget (BitVec.ofInt 32 next) with
  | (false, failed) => (false, { d with chip := failed.unhealthy })
  | (true, done) =>
    heedStatus platform { d with chip := { done with target := next, pulses := done.pulses + 1 } }

/-- One microstep. -/
def step (platform : ChipPlatform K β) (d : Tmc5160Driver K β) (directionForward : Bool) :
    Bool × Tmc5160Driver K β :=
  if ¬ d.chip.healthy ∨ ¬ d.chip.enabled then (false, d)
  else if d.chip.shortActive then (false, d)
  else
    let (sample, supervise, begun) := d.beginStep
    match begun.superviseStep platform supervise with
    | (false, failed) => (false, failed)
    | (true, supervised) =>
      match supervised.inspectStep platform supervise sample with
      | (false, refused) => (false, refused)
      | (true, inspected) => inspected.advance platform directionForward

/-- Take in the rate of the pulses to come. -/
def noteStepRate (d : Tmc5160Driver K β) (fullStepHz : K) (steady : Bool) : Tmc5160Driver K β :=
  { d with sampling := d.sampling.noteStepRate d.cfg fullStepHz steady }

/-- Hand out the request to stop, once. -/
def takeStepLossStop (d : Tmc5160Driver K β) : Bool × Tmc5160Driver K β :=
  (d.chip.stepLossStop, { d with chip := { d.chip with stepLossStop := false } })

/-- The look at an enabled chip at standstill. -/
def poll (platform : ChipPlatform K β) (d : Tmc5160Driver K β) : Bool × Tmc5160Driver K β :=
  if ¬ platform.isOpen d.chip.bus ∨ ¬ d.chip.healthy ∨ ¬ d.chip.enabled then (d.chip.healthy, d)
  else
    match d.recover platform .idle with
    | (false, failed) => (false, failed)
    | (true, restored) =>
      let checked := (restored.checkDriverStatus platform false false).2
      let placed := { checked with chip := checked.chip.checkPosition platform }
      (placed.chip.healthy, placed)

/-- Read the target back at the end of a move, and rewrite it once when it differs. -/
def confirmTarget (platform : ChipPlatform K β) (d : Tmc5160Driver K β) : Bool × Tmc5160Driver K β :=
  if ¬ platform.isOpen d.chip.bus ∨ ¬ d.chip.healthy ∨ ¬ d.chip.enabled then (d.chip.healthy, d)
  else
    match d.chip.readRegister platform .xtarget with
    | (none, failed) => (false, { d with chip := failed.unhealthy })
    | (some xtarget, c) =>
      if xtarget.toInt = c.target then (true, { d with chip := c })
      else
        let target := BitVec.ofInt 32 c.target
        let repairing := { c with xtargetRepairs := c.xtargetRepairs + 1 }
        match repairing.writeRegister platform .xtarget target with
        | (false, failed) => (false, { d with chip := failed.unhealthy })
        | (true, rewritten) =>
          let (ok, verified) := rewritten.verifyRegisters platform [(.xtarget, target)]
          (ok, { d with chip := verified })

/-- Drive the enable line off behind a frozen motor, and look whether the chip saw it. -/
def disable (platform : ChipPlatform K β) (d : Tmc5160Driver K β) : Bool × Tmc5160Driver K β :=
  let (frozen, c) := d.chip.freeze platform
  let (lineOk, bus) := platform.setEnableLine c.bus false
  let ok := frozen && lineOk
  let off := { c with bus := bus, healthy := ok && c.healthy, enabled := false }
  if ok && d.cfg.verifyEnableLine then
    match off.readRegister platform .ioin with
    | (none, failed) => (false, { d with chip := failed.unhealthy })
    | (some ioin, c) => (true, { d with chip := { c with enableLineEffective := ioin.getLsbD 4 } })
  else (ok, { d with chip := off })

/-- Drive the enable line, restore the chip if need be and start the chopper. -/
def enable (platform : ChipPlatform K β) (d : Tmc5160Driver K β) : Bool × Tmc5160Driver K β :=
  let (lineOk, bus) := platform.setEnableLine d.chip.bus true
  let c := { d.chip with bus := bus }
  if ¬ lineOk then (false, { d with chip := c.unhealthy })
  else
    match if c.healthy then (true, c) else c.reinitialize platform d.cfg with
    | (false, failed) => (false, { d with chip := failed })
    | (true, probed) =>
      match probed.recoverFromChipReset platform d.cfg .enable with
      | (false, failed) => (false, { d with chip := failed })
      | (true, restored) =>
        match ChipSide.seesEnable platform d.cfg { restored with stepsSinceResetCheck := 0 } with
        | (false, failed) => (false, { d with chip := failed.unhealthy })
        | (true, c) =>
          match c.writeRegister platform .chopconf (encodeChopconf 3#32) with
          | (false, failed) => (false, { d with chip := failed.unhealthy })
          | (true, c) =>
            let armed := { d with chip := { c with
              enabled := true
              otLatched := false
              otpwNow := false
              shortActive := false
              openLoadActive := false
              positionMismatchPolls := 0 } }
            (true, (armed.checkDriverStatus platform false false).2)

/-- Change the microstep divisor; a chip that is not healthy gets it with its next configuration. -/
def setMicrostep (platform : ChipPlatform K β) (d : Tmc5160Driver K β) (divisor : ℤ) : Tmc5160Driver K β :=
  if ¬ isSupportedMicrostep divisor then { d with chip := d.chip.unhealthy }
  else
    let c := { d.chip with microstep := divisor }
    if ¬ c.healthy then { d with chip := c }
    else
      match c.writeRegister platform .chopconf c.chopconf with
      | (false, failed) => { d with chip := failed.unhealthy }
      | (true, done) => { d with chip := (done.verifyRegisters platform [(.chopconf, c.chopconf)]).2 }

/-- Change the run current of a healthy chip. -/
def setRunCurrent (platform : ChipPlatform K β) (d : Tmc5160Driver K β) (aRms : K) :
    Bool × Tmc5160Driver K β :=
  match calculateCurrent platform.sqrt (some aRms) (some d.cfg.senseResistorOhm)
      (some d.cfg.holdCurrentFrac) with
  | none => (false, d)
  | some scale =>
    if ¬ d.chip.healthy then (false, d)
    else
      match d.chip.writeRegisters platform
          ((d.chip.configuration d.cfg scale).filter fun entry =>
            entry.1 = .globalscaler ∨ entry.1 = .iholdIrun) with
      | (false, failed) => (false, { d with chip := failed })
      | (true, done) => (true, { d with chip := { done with runCurrentARms := aRms } })

/-- The driver as it is constructed: the chip is configured, and the motor disabled. -/
def new (platform : ChipPlatform K β) (cfg : Tmc5160Config K) (microstep : ℤ) (runCurrentARms : K)
    (bus : β) : Tmc5160Driver K β :=
  let (opened, bus) := platform.available bus
  let fresh : ChipSide K β :=
    { bus := bus
      healthy := false
      enabled := false
      microstep := microstep
      target := 0
      pulses := 0
      runCurrentARms := runCurrentARms
      enableLineEffective := true
      resetCount := 0
      stepsSinceResetCheck := 0
      otpwNow := false
      otLatched := false
      otpwEvents := 0
      lastSpiStatus := 0
      stepLossCount := 0
      stepLossReason := none
      stepLossStop := false
      statusHoldoffSteps := 0
      uvCpActive := false
      drvErrActive := false
      drvErrUnexplained := false
      shortActive := false
      openLoadActive := false
      uvCpEvents := 0
      shortEvents := 0
      openLoadEvents := 0
      xtargetRepairs := 0
      positionMismatchPolls := 0
      stopRequests := 0
      written := [] }
  let (ok, chip) := fresh.reinitialize platform cfg
  ⟨cfg, { chip with healthy := opened && ok }, .new⟩

/-- What can be asked of a driver. -/
inductive Call (K : Type*) where
  | noteStepRate (fullStepHz : K) (steady : Bool)
  | step (directionForward : Bool)
  | takeStepLossStop
  | poll
  | confirmTarget
  | enable
  | disable
  | activeCheck
  | setMicrostep (divisor : ℤ)
  | setRunCurrent (aRms : K)

/-- Carry out a call. -/
def apply (platform : ChipPlatform K β) (d : Tmc5160Driver K β) : Call K → Tmc5160Driver K β
  | .noteStepRate fullStepHz steady => d.noteStepRate fullStepHz steady
  | .step directionForward => (d.step platform directionForward).2
  | .takeStepLossStop => d.takeStepLossStop.2
  | .poll => (d.poll platform).2
  | .confirmTarget => (d.confirmTarget platform).2
  | .enable => (d.enable platform).2
  | .disable => (d.disable platform).2
  | .activeCheck => { d with chip := ( d.chip.reinitialize platform d.cfg).2 }
  | .setMicrostep divisor => d.setMicrostep platform divisor
  | .setRunCurrent aRms => (d.setRunCurrent platform aRms).2

end Tmc5160Driver

end Coatheal.Motion
