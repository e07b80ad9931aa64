import Coatheal.Config.Ini

/-!
# The checks of a configuration

When the lines are read, the maps of the layout are derived from the specimens, if the file has those, and
the configuration passes a row of checks. The first one that fails gives the message; a configuration that
fails none is accepted. The lines of the GPIO chips are claimed one after the other, and each may be claimed
once.
-/

namespace Coatheal.Config

open Wiring (LayoutMaps deriveLayoutFromSpecimens reservedGpioLines)

/-- What a check asks, and the message when it fails. -/
structure Check where
  holds : Bool
  message : String

/-- `std::sqrt(2.0)`. -/
def sqrtTwo : ℚ := 6369051672525773 / 4503599627370496

/-- A claim of a line of a GPIO chip by an owner. -/
structure Claim where
  chip : List Char
  line : ℕ
  owner : String

/-- Two claims of one line of one chip, as the chip is written. -/
def Claim.same (first second : Claim) : Bool := first.chip = second.chip && first.line = second.line

/-- Lines are claimed one after the other, each by the first that claims it. -/
def claimChecks (owned : List Claim) : List Claim → List Check
  | [] => []
  | claim :: rest =>
    (match owned.find? claim.same with
      | none => ⟨true, ""⟩
      | some first => ⟨false, s!"{String.ofList claim.chip} line {claim.line} assigned to both {first.owner} and {
          claim.owner}"⟩) :: claimChecks (owned ++ [claim]) rest

/-- The owners of the reserved lines. -/
def reservedOwners : List String :=
  ["reserved: sequent_hat uart_tx", "reserved: sequent_hat uart_rx", "reserved: sequent_hat rs485_dir",
    "reserved: sequent_hat intn", "reserved: spi0_ce1 (max31865 sample1)", "reserved: spi0_ce0 (max31865 sample2)"]

namespace OnboardConfig

variable (nearest : ℚ → ℚ) (config : OnboardConfig)

/-- The two motors. -/
def motors : List MotorConfig := [config.motor0, config.motor1]

/-- The name of a heater as an owner, by the specimens of its motor if the file has those. -/
def heaterOwner (bySpecimens : Bool) (index : ℕ) : String :=
  let sample := config.heaters.temperatureChannels.getD index config.hardware.sampleCount
  if bySpecimens && config.motor1.samples.any (· = sample) then s!"heater H{index} (motor1.specimens)"
  else if bySpecimens && config.motor0.samples.any (· = sample) then s!"heater H{index} (motor0.specimens)"
  else s!"heater.output_lines[{index}]"

/-- The claims of the reserved lines, the heaters and the motors. -/
def boardClaims (bySpecimens : Bool) : List Claim :=
  ((reservedGpioLines.zip reservedOwners).map fun reserved => ⟨config.runtime.gpioChip, reserved.1, reserved.2⟩) ++
    (config.heaters.outputLines.zipIdx.map fun line =>
      ⟨config.runtime.gpioChip, line.1, config.heaterOwner bySpecimens line.2⟩) ++
    config.motors.zipIdx.flatMap fun motor =>
      [⟨motor.1.gpioChip, motor.1.csLine, s!"motor{motor.2}.cs_line"⟩,
        ⟨motor.1.gpioChip, motor.1.enableLine, s!"motor{motor.2}.enable_line"⟩]

/-- The claims of the LEDs that are enabled. -/
def ledClaims : List Claim :=
  (if config.hal.statusLedEnabled then
    [⟨config.runtime.gpioChip, config.hal.statusLedLine, "hal.status_led_line"⟩] else []) ++
  if config.hal.modeLedEnabled then [⟨config.runtime.gpioChip, config.hal.modeLedLine, "hal.mode_led_line"⟩] else []

/-- The checks of the rates, the fallback, the sizes, the heaters and their power. -/
def powerChecks : List Check :=
  [⟨0 < config.runtime.tickHz, "runtime.tick_hz must be > 0"⟩,
    ⟨0 ≤ config.manual.linkLossFallbackS, "manual.link_loss_fallback_s must be >= 0"⟩,
    ⟨config.fallback.bendMinC < config.fallback.bendMaxC, "fallback.bend_max_c must be > fallback.bend_min_c"⟩,
    ⟨0 ≤ config.fallback.bendDeadlineS, "fallback.bend_deadline_s must be >= 0"⟩,
    ⟨config.hardware.heaterCount ≠ 0, "hardware.heater_count must be > 0"⟩,
    ⟨config.hardware.sampleCount ≠ 0, "hardware.sample_count must be > 0"⟩,
    ⟨config.hardware.heaterCount ≤ config.hardware.sampleCount,
      "hardware.heater_count must be <= hardware.sample_count"⟩,
    ⟨config.heaters.outputLines = [] ∨ config.heaters.outputLines.length = config.hardware.heaterCount,
      "heater.output_lines count must equal hardware.heater_count"⟩,
    ⟨0 < config.heaters.pwmFrequencyHz, "heater.pwm_frequency_hz must be > 0"⟩,
    ⟨config.power.maxActiveHeaters ≠ 0 ∧ config.power.maxActiveHeaters ≤ 3,
      "power.max_active_heaters must be 1..3 (owner power rule: never more than 3 heaters)"⟩,
    ⟨0 < config.power.maxThermalW ∧ config.power.maxThermalW ≤ 15,
      "power.max_thermal_w must be > 0 and <= 15.0 (owner power rule)"⟩,
    ⟨config.manual.manualFirst, "manual.manual_first must be true in Rev C"⟩,
    ⟨config.heaters.temperatureChannels.length = config.hardware.heaterCount,
      "heater.temperature_channels count must equal hardware.heater_count"⟩,
    ⟨config.heaters.temperatureChannels.all (· < config.hardware.sampleCount),
      "heater temperature channel out of range"⟩,
    ⟨config.heaterSafety.targetMinC < config.heaterSafety.targetMaxC ∧
        config.heaterSafety.targetMaxC < config.heaterSafety.maxSampleTempC,
      "heater target limits must satisfy min < max < max_sample_temp_c"⟩,
    ⟨config.hardware.electronicsHeaterIndex = 2 ^ 64 - 1 ∨
        config.hardware.electronicsHeaterIndex < config.hardware.heaterCount,
      "electronics heater index out of range"⟩]

/-- A text is one of some words. -/
def isOneOf (text : List Char) (words : List String) : Bool := words.any fun word => word = String.ofList text

/-- The checks of the link, the store and the sensors. -/
def sensorChecks : List Check :=
  [⟨0 < config.comms.telemetryPort ∧ 0 < config.comms.commandPort ∧ 0 < config.comms.discoveryPort,
      "all comms ports must be > 0"⟩,
    ⟨0 ≤ config.comms.priority ∧ config.comms.priority ≤ 999, "comms.priority must be in [0, 999]"⟩,
    ⟨0 < config.storage.queueRetentionHours, "storage.queue_retention_hours must be > 0"⟩,
    ⟨config.storage.queueMaxBytes ≠ 0, "storage.queue_max_bytes must be > 0"⟩,
    ⟨isOneOf config.sensors.pressureSource ["dps310"] && isOneOf config.sensors.uvSource ["guva_s12sd_ads1115"],
      "sensor sources must match Rev C supported hardware"⟩,
    ⟨isOneOf config.sensors.resistanceSource ["disabled", "simulated", "sequent_rtd", "max31865_click"],
      "sensor.resistance_source must be disabled, simulated, sequent_rtd, or max31865_click"⟩,
    ⟨0 ≤ config.sensors.dps310I2cAddr ∧ config.sensors.dps310I2cAddr ≤ 0x7F ∧ 0 ≤ config.sensors.ads1115I2cAddr ∧
        config.sensors.ads1115I2cAddr ≤ 0x7F ∧ 0 ≤ config.sensors.uvAds1115Channel ∧
        config.sensors.uvAds1115Channel ≤ 3 ∧ 0 < config.sensors.uvFullScaleV,
      "invalid I2C sensor configuration"⟩,
    ⟨0 ≤ config.sensors.sequentRtdStack ∧ config.sensors.sequentRtdStack ≤ 7,
      "sensor.sequent_rtd_stack must be 0..7 (I2C 0x40..0x47)"⟩,
    ⟨config.sensors.sequentRtdChannels.length = config.hardware.sampleCount,
      "sensor.sequent_rtd_channels must have hardware.sample_count entries"⟩] ++
  (config.sensors.sequentRtdChannels.zipIdx.flatMap fun channel =>
    [⟨1 ≤ channel.1 ∧ channel.1 ≤ 8, "sensor.sequent_rtd_channels entries must be 1..8"⟩,
      ⟨!(config.sensors.sequentRtdChannels.take channel.2).any (· = channel.1),
        "sensor.sequent_rtd_channels contains duplicates"⟩]) ++
  [⟨isOneOf config.sensors.sequentRtdExpectSensorType ["pt100"],
      "sensor.sequent_rtd_expect_sensor_type must be pt100 (pt1000 is recognised but not implemented: the CVD " ++
        "cross-check and resistance window are PT100-only)"⟩,
    ⟨config.sensors.sequentRtdResistanceMinOhm < config.sensors.sequentRtdResistanceMaxOhm,
      "sensor.sequent_rtd_resistance_min_ohm must be below sensor.sequent_rtd_resistance_max_ohm"⟩,
    ⟨0 < config.sensors.max31865ReferenceOhm, "sensor.max31865_reference_ohm must be > 0"⟩,
    ⟨0 < config.sensors.max31865PollMs, "sensor.max31865_poll_ms must be > 0"⟩,
    ⟨config.sensors.max31865SampleIndices.length = 2,
      "sensor.max31865_sample_indices must have exactly two entries"⟩,
    ⟨config.sensors.max31865SampleIndices[0]? ≠ config.sensors.max31865SampleIndices[1]?,
      "sensor.max31865_sample_indices entries must be distinct"⟩,
    ⟨config.sensors.max31865SampleIndices.all (· < config.hardware.sampleCount),
      "sensor.max31865_sample_indices entries must be less than hardware.sample_count"⟩,
    ⟨0 ≤ config.heaters.debugMaxDuty ∧ config.heaters.debugMaxDuty ≤ 1 ∧ 0 < config.heaters.debugMaxSeconds ∧
        config.heaters.debugMaxSeconds ≤ 60,
      "invalid heater debug limits"⟩,
    ⟨0 < config.heaters.maxDuty ∧ config.heaters.maxDuty ≤ 1, "heater.max_duty must be in (0, 1]"⟩]

/-- The checks of the motion. -/
def motionChecks : List Check :=
  [⟨0 < config.stepper.stepsPerRev ∧ 0 < config.stepper.defaultStepHz ∧ 0 < config.stepper.maxPositionSteps,
      "invalid stepper configuration"⟩,
    ⟨0 < config.stepper.leadMmPerRev ∧ config.stepper.leadMmPerRev ≤ 100,
      "stepper.lead_mm_per_rev must be in (0, 100] mm"⟩,
    ⟨0 < config.stepper.maxAccelStepsPerS2, "stepper.max_accel_steps_per_s2 must be > 0"⟩,
    ⟨0 < config.stepper.maxSpeedMmS ∧ config.stepper.maxSpeedMmS ≤ 100,
      "stepper.max_speed_mm_s must be in (0, 100] mm/s"⟩,
    ⟨0 < config.stepper.maxDirectUsteps ∧ config.stepper.maxDirectUsteps ≤ config.stepper.maxPositionSteps,
      "stepper.max_direct_usteps must be in (0, stepper.max_position_steps]"⟩,
    ⟨0 ≤ config.stepper.stallMinStepHz, "stepper.stall_min_step_hz must be >= 0 full-steps/s"⟩,
    ⟨1 ≤ config.stepper.stallConfirmSamples ∧ config.stepper.stallConfirmSamples ≤ 50,
      "stepper.stall_confirm_samples must be in [1, 50]"⟩,
    ⟨0 < config.pull.maxStepHz ∧ 0 < config.pull.accelStepsPerS2 ∧
        config.pull.accelStepsPerS2 ≤ config.stepper.maxAccelStepsPerS2 ∧
        [1, 2, 4, 8, 16, 32, 64, 128, 256].any (fun divisor : ℤ => divisor = config.pull.microstep) ∧
        0 < config.pull.travelFullSteps ∧ 0 ≤ config.pull.holdS,
      "invalid pull configuration"⟩]

/-- The checks of a motor. -/
def motorChecks (numbered : MotorConfig × ℕ) : List Check :=
  let motor := numbered.1
  let name := s!"motor{numbered.2}"
  [⟨!isOneOf motor.driver ["tmc2240"], name ++ ".driver=tmc2240 is retired; use tmc5160"⟩,
    ⟨isOneOf motor.driver ["tmc5160", "simulated"], name ++ ".driver must be tmc5160 or simulated"⟩,
    ⟨motor.gpioChip ≠ [] ∧ motor.spiDevice ≠ [] ∧ 0 ≤ motor.holdCurrentFrac ∧ motor.holdCurrentFrac ≤ 1 ∧
        motor.spiSpeedHz ≠ 0 ∧ motor.spiSpeedHz ≤ 10000000 ∧ 0 < motor.senseResistorOhm ∧
        motor.senseResistorOhm < 1 ∧ 100 ≤ motor.retryMs ∧ motor.samples ≠ [],
      s!"invalid {name} configuration"⟩,
    ⟨0 < motor.runCurrentARms ∧ motor.runCurrentARms ≤ nearest (31 / 10),
      name ++ ".run_current_a_rms must be in (0, 3.1]"⟩,
    ⟨nearest (motor.runCurrentARms * sqrtTwo) ≤ nearest (nearest (325 / 1000) / motor.senseResistorOhm),
      name ++ ".run_current_a_rms exceeds the sense resistor's deliverable current ceiling " ++
        "(run_current_a_rms*sqrt(2) must be <= 0.325/sense_resistor_ohm)"⟩,
    ⟨0 ≤ motor.accelStepsPerS2 ∧ motor.accelStepsPerS2 ≤ config.stepper.maxAccelStepsPerS2,
      name ++ ".accel_steps_per_s2 must be 0 (inherit) or in (0, stepper.max_accel_steps_per_s2]"⟩,
    ⟨isOneOf motor.stallDetect ["off", "monitor", "stop"], name ++ ".stall_detect must be off, monitor or stop"⟩,
    ⟨!(isOneOf motor.stallDetect ["stop"] && motor.stealthChop),
      name ++ ".stall_detect=stop needs spreadCycle (stealth_chop=false)"⟩,
    ⟨-64 ≤ motor.stallguardSgt ∧ motor.stallguardSgt ≤ 63, name ++ ".stallguard_sgt must be in [-64, 63]"⟩,
    ⟨0 ≤ motor.stallSgMin ∧ motor.stallSgMin ≤ 1023, name ++ ".stall_sg_min must be in [0, 1023]"⟩,
    ⟨motor.samples.all (· < config.hardware.sampleCount), name ++ ".samples contains out-of-range sample"⟩]

/-- All checks, in their order. -/
def checks (bySpecimens : Bool) : List Check :=
  config.powerChecks ++ config.sensorChecks ++ config.motionChecks ++
    config.motors.zipIdx.flatMap (config.motorChecks nearest) ++ claimChecks [] (config.boardClaims bySpecimens) ++
    [⟨0 < config.sensors.dps310PollMs ∧ 0 < config.sensors.ads1115PollMs ∧ 0 < config.sensors.staleAfterMs,
      "sensor poll/stale intervals must be > 0"⟩] ++
    claimChecks (config.boardClaims bySpecimens) config.ledClaims

end OnboardConfig

end Coatheal.Config
