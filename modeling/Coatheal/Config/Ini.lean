import Coatheal.Library.Decimal
import Coatheal.Wiring.Loader

/-!
# The lines of a configuration file

Every line that is no comment sets one key, of a kind that says how its value is read, and a key that is
set again is read again. Values that nothing checks are read and dropped, since a value that cannot be read
refuses the file all the same. A number with a fraction is read as the double nearest to it; which one that
is does not matter, so the rounding is a parameter.
-/

namespace Coatheal.Config

open Library
open Library.Text (trim getlines cut)
open Wiring (SpecimenConfig)

/-- `RuntimeConfig`. -/
structure RuntimeConfig where
  tickHz : ℚ
  gpioChip : List Char

/-- `ManualControlConfig`. -/
structure ManualControlConfig where
  manualFirst : Bool
  linkLossFallbackS : ℚ

/-- `FallbackConfig`. -/
structure FallbackConfig where
  bendMinC : ℚ
  bendMaxC : ℚ
  bendDeadlineS : ℚ

/-- `CommsConfig`. -/
structure CommsConfig where
  telemetryPort : ℤ
  commandPort : ℤ
  discoveryPort : ℤ
  priority : ℤ

/-- `StorageConfig`. -/
structure StorageConfig where
  queueRetentionHours : ℚ
  queueMaxBytes : ℕ

/-- `HeaterSafetyConfig`. -/
structure HeaterSafetyConfig where
  maxSampleTempC : ℚ
  targetMinC : ℚ
  targetMaxC : ℚ

/-- `PowerConfig`. -/
structure PowerConfig where
  maxActiveHeaters : ℕ
  maxThermalW : ℚ
  heaterNominalW : ℚ
  energyBudgetWh : ℚ

/-- `HardwareConfig`. -/
structure HardwareConfig where
  sampleCount : ℕ
  heaterCount : ℕ
  electronicsHeaterIndex : ℕ

/-- `SensorHardwareConfig`. -/
structure SensorHardwareConfig where
  dps310PollMs : ℤ
  ads1115PollMs : ℤ
  staleAfterMs : ℤ
  sequentRtdStack : ℤ
  sequentRtdChannels : List ℕ
  sequentRtdExpectSensorType : List Char
  sequentRtdResistanceMinOhm : ℚ
  sequentRtdResistanceMaxOhm : ℚ
  pressureSource : List Char
  dps310I2cAddr : ℤ
  uvSource : List Char
  ads1115I2cAddr : ℤ
  uvAds1115Channel : ℤ
  uvFullScaleV : ℚ
  resistanceSource : List Char
  max31865ReferenceOhm : ℚ
  max31865PollMs : ℤ
  max31865SampleIndices : List ℕ

/-- `HeaterOutputConfig`. -/
structure HeaterOutputConfig where
  outputLines : List ℕ
  temperatureChannels : List ℕ
  pwmFrequencyHz : ℚ
  debugMaxDuty : ℚ
  debugMaxSeconds : ℚ
  maxDuty : ℚ

/-- `StepperConfig`. -/
structure StepperConfig where
  stepsPerRev : ℤ
  defaultStepHz : ℚ
  maxPositionSteps : ℤ
  leadMmPerRev : ℚ
  maxSpeedMmS : ℚ
  maxDirectUsteps : ℤ
  maxAccelStepsPerS2 : ℚ
  stallMinStepHz : ℚ
  stallConfirmSamples : ℤ

/-- `PullConfig`. -/
structure PullConfig where
  maxStepHz : ℚ
  accelStepsPerS2 : ℚ
  microstep : ℤ
  travelFullSteps : ℤ
  holdS : ℚ

/-- `MotorConfig`. -/
structure MotorConfig where
  driver : List Char
  gpioChip : List Char
  spiDevice : List Char
  csLine : ℕ
  enableLine : ℕ
  runCurrentARms : ℚ
  holdCurrentFrac : ℚ
  stealthChop : Bool
  spiSpeedHz : ℕ
  senseResistorOhm : ℚ
  retryMs : ℤ
  accelStepsPerS2 : ℚ
  stallDetect : List Char
  stallguardSgt : ℤ
  stallSgMin : ℤ
  samples : List ℕ
  specimens : List SpecimenConfig

/-- `HalConfig`. -/
structure HalConfig where
  statusLedEnabled : Bool
  modeLedEnabled : Bool
  statusLedLine : ℕ
  modeLedLine : ℕ

/-- `OnboardConfig`, of what is checked or used. -/
structure OnboardConfig where
  runtime : RuntimeConfig
  manual : ManualControlConfig
  fallback : FallbackConfig
  comms : CommsConfig
  storage : StorageConfig
  debounceSamples : ℤ
  power : PowerConfig
  hardware : HardwareConfig
  sensors : SensorHardwareConfig
  heaters : HeaterOutputConfig
  heaterSafety : HeaterSafetyConfig
  hal : HalConfig
  stepper : StepperConfig
  pull : PullConfig
  motor0 : MotorConfig
  motor1 : MotorConfig

variable (nearest : ℚ → ℚ)

/-- A motor before its keys are read. -/
def MotorConfig.default (csLine enableLine : ℕ) (samples : List ℕ) : MotorConfig where
  driver := "tmc5160".toList
  gpioChip := "/dev/gpiochip0".toList
  spiDevice := "/dev/spidev0.0".toList
  csLine := csLine
  enableLine := enableLine
  runCurrentARms := nearest (8 / 10)
  holdCurrentFrac := nearest (3 / 10)
  stealthChop := false
  spiSpeedHz := 1000000
  senseResistorOhm := nearest (75 / 1000)
  retryMs := 2000
  accelStepsPerS2 := 0
  stallDetect := "monitor".toList
  stallguardSgt := 0
  stallSgMin := 0
  samples := samples
  specimens := []

/-- The configuration before its keys are read. -/
def OnboardConfig.default : OnboardConfig where
  runtime := ⟨1, "/dev/gpiochip0".toList⟩
  manual := ⟨true, 10⟩
  fallback := ⟨-40, 40, 1800⟩
  comms := ⟨4000, 5000, 4100, 100⟩
  storage := ⟨72, 8589934592⟩
  debounceSamples := 5
  power := ⟨3, 15, 5, 0⟩
  hardware := ⟨8, 6, 2 ^ 64 - 1⟩
  sensors :=
    { dps310PollMs := 1000
      ads1115PollMs := 1000
      staleAfterMs := 3000
      sequentRtdStack := 0
      sequentRtdChannels := [1, 2, 3, 4, 5, 6, 7, 8]
      sequentRtdExpectSensorType := "pt100".toList
      sequentRtdResistanceMinOhm := 60
      sequentRtdResistanceMaxOhm := 390
      pressureSource := "dps310".toList
      dps310I2cAddr := 0x77
      uvSource := "guva_s12sd_ads1115".toList
      ads1115I2cAddr := 0x48
      uvAds1115Channel := 0
      uvFullScaleV := nearest (4096 / 1000)
      resistanceSource := "max31865_click".toList
      max31865ReferenceOhm := 470
      max31865PollMs := 1000
      max31865SampleIndices := [0, 4] }
  heaters := ⟨[19, 13, 6, 5, 24, 23], [0, 1, 2, 3, 4, 5], 1, 1 / 4, 10, 1⟩
  heaterSafety := ⟨80, 0, 75⟩
  hal := ⟨false, false, 17, 27⟩
  stepper := ⟨200, 100, 200000, 1, 1 / 2, 1000, 5000, 50, 3⟩
  pull := ⟨100, 400, 4, 400, 5⟩
  motor0 := .default nearest 22 20 [0, 1, 2, 3]
  motor1 := .default nearest 27 21 [4, 5, 6, 7]

/-- `ParseBool`. -/
def parseBool (value : List Char) : Option Bool :=
  let v := trim Text.isSpace value
  if ["1", "true", "TRUE", "on", "ON"].any (fun word => word = String.ofList v) then some true
  else if ["0", "false", "FALSE", "off", "OFF"].any (fun word => word = String.ofList v) then some false
  else none

/-- `ParseNumber` of a signed integer of some bits. -/
def parseSigned (bits : ℕ) (value : List Char) : Option ℤ :=
  let (negative, body) := Text.splitSign (trim Text.isSpace value)
  (Literal.streamMagnitude body).bind fun magnitude =>
    let number : ℤ := if negative then -(magnitude : ℤ) else magnitude
    if -2 ^ (bits - 1) ≤ number ∧ number < 2 ^ (bits - 1) then some number else none

/-- `ParseNumber` of a double. What rounds to infinity is no number. -/
def parseDouble (value : List Char) : Option ℚ :=
  let (negative, body) := Text.splitSign (trim Text.isSpace value)
  (Text.wholeDecimal body).bind fun magnitude =>
    if (2 : ℚ) ^ 1024 - (2 : ℚ) ^ 970 ≤ magnitude then none
    else some (nearest (if negative then -magnitude else magnitude))

/-- A key of a configuration `C`: the kind of its value, and what the value is stored in. -/
inductive Entry (C : Type) where
  | bool (store : C → Bool → C)
  | int (store : C → ℤ → C)
  | u64 (store : C → ℕ → C)
  | double (store : C → ℚ → C)
  | i64 (store : C → ℤ → C)
  | size (store : C → ℕ → C)
  | text (store : C → List Char → C)
  | sizeList (message : String → ℕ → String) (store : C → List ℕ → C)
  | specimens (store : C → List SpecimenConfig → C)

/-- A value that was read is stored, or there is a message. -/
def stored {C α : Type} (config : C) (store : C → α → C) (message : String) : Option α → Except String C
  | some value => .ok (store config value)
  | none => .error message

/-- A value is read as its key asks for. -/
def Entry.read {C : Type} (entry : Entry C) (config : C) (key : String) (value : List Char) (lineNo : ℕ) :
    Except String C :=
  match entry with
  | .bool store => stored config store s!"invalid bool value for {key} at line {lineNo}" (parseBool value)
  | .int store => stored config store s!"invalid integer value for {key} at line {lineNo}" (parseSigned 32 value)
  | .u64 store => stored config store s!"invalid uint64 value for {key} at line {lineNo}" (Wiring.parseNumber value)
  | .double store =>
    stored config store s!"invalid numeric value for {key} at line {lineNo}" (parseDouble nearest value)
  | .i64 store => stored config store s!"invalid int64 value for {key} at line {lineNo}" (parseSigned 64 value)
  | .size store => stored config store s!"invalid size_t value for {key} at line {lineNo}" (Wiring.parseNumber value)
  | .text store => .ok (store config value)
  | .sizeList message store => stored config store (message key lineNo) (Wiring.parseSizeList value)
  | .specimens store =>
    stored config store (s!"invalid {key} at line {lineNo}: entries are a PT100 card terminal and, when heated, the "
      ++ "heater's BCM line (ch8:19), or the terminal alone (ch1)") (Wiring.parseSpecimenList value)

/-- A value that is read and dropped. -/
def unused {C α : Type} (config : C) (_ : α) : C := config

/-- The keys of the file, except those of the motors. -/
def entries : List (String × Entry OnboardConfig) :=
  [("runtime.tick_hz", .double fun c v => { c with runtime.tickHz := v }),
    ("runtime.bench_mode", .bool unused),
    ("runtime.debug_arm_code", .text unused),
    ("runtime.use_simulated_pwm", .bool unused),
    ("runtime.use_simulated_sensors", .bool unused),
    ("runtime.gpio_chip", .text fun c v => { c with runtime.gpioChip := v }),
    ("manual.manual_first", .bool fun c v => { c with manual.manualFirst := v }),
    ("manual.link_loss_fallback_enabled", .bool unused),
    ("manual.link_loss_fallback_s", .double fun c v => { c with manual.linkLossFallbackS := v }),
    ("fallback.bend_min_c", .double fun c v => { c with fallback.bendMinC := v }),
    ("fallback.bend_max_c", .double fun c v => { c with fallback.bendMaxC := v }),
    ("fallback.bend_deadline_s", .double fun c v => { c with fallback.bendDeadlineS := v }),
    ("fallback.landed_safe", .bool unused),
    ("comms.telemetry_host", .text unused),
    ("comms.static_ground_ip", .text unused),
    ("comms.static_pi_ip", .text unused),
    ("comms.telemetry_port", .int fun c v => { c with comms.telemetryPort := v }),
    ("comms.command_port", .int fun c v => { c with comms.commandPort := v }),
    ("comms.reconnect_ms", .int unused),
    ("comms.discovery_enabled", .bool unused),
    ("comms.discovery_port", .int fun c v => { c with comms.discoveryPort := v }),
    ("comms.discovery_period_ms", .int unused),
    ("comms.rediscover_period_s", .int unused),
    ("comms.failover_grace_s", .int unused),
    ("comms.priority", .int fun c v => { c with comms.priority := v }),
    ("storage.primary_log_path", .text unused),
    ("storage.secondary_log_path", .text unused),
    ("storage.queue_dir", .text unused),
    ("storage.queue_retention_hours", .double fun c v => { c with storage.queueRetentionHours := v }),
    ("storage.queue_max_bytes", .u64 fun c v => { c with storage.queueMaxBytes := v }),
    ("phase.sample_floor_c", .double unused),
    ("phase.uniformity_tolerance_c", .double unused),
    ("heater.max_sample_temp_c", .double fun c v => { c with heaterSafety.maxSampleTempC := v }),
    ("heater.target_min_c", .double fun c v => { c with heaterSafety.targetMinC := v }),
    ("heater.target_max_c", .double fun c v => { c with heaterSafety.targetMaxC := v }),
    ("sensor.ambient_temp_min_c", .double unused),
    ("sensor.ambient_temp_max_c", .double unused),
    ("sensor.ambient_pressure_min_mbar", .double unused),
    ("sensor.ambient_pressure_max_mbar", .double unused),
    ("transition.pre_float_mbar", .double unused),
    ("transition.ascent_to_float_mbar", .double unused),
    ("transition.float_to_descent_mbar", .double unused),
    ("transition.descent_to_landed_mbar", .double unused),
    ("transition.debounce_samples", .int fun c v => { c with debounceSamples := v }),
    ("power.max_active_heaters", .size fun c v => { c with power.maxActiveHeaters := v }),
    ("power.max_thermal_w", .double fun c v => { c with power.maxThermalW := v }),
    ("power.max_system_w", .double unused),
    ("power.heater_nominal_w", .double fun c v => { c with power.heaterNominalW := v }),
    ("power.energy_budget_wh", .double fun c v => { c with power.energyBudgetWh := v }),
    ("power.logic_regulator_v", .double unused),
    ("power.stepper_regulator_v", .double unused),
    ("pid.kp", .double unused),
    ("pid.ki", .double unused),
    ("pid.kd", .double unused),
    ("hardware.sample_count", .size fun c v => { c with hardware.sampleCount := v }),
    ("hardware.heater_count", .size fun c v => { c with hardware.heaterCount := v }),
    ("hardware.electronics_heater_index", .size fun c v => { c with hardware.electronicsHeaterIndex := v }),
    ("sensor.dps310_enabled", .bool unused),
    ("sensor.ads1115_enabled", .bool unused),
    ("sensor.dps310_auto_discover", .bool unused),
    ("sensor.ads1115_auto_discover", .bool unused),
    ("sensor.dps310_poll_ms", .int fun c v => { c with sensors.dps310PollMs := v }),
    ("sensor.ads1115_poll_ms", .int fun c v => { c with sensors.ads1115PollMs := v }),
    ("sensor.stale_after_ms", .int fun c v => { c with sensors.staleAfterMs := v }),
    ("sensor.sequent_rtd_stack", .int fun c v => { c with sensors.sequentRtdStack := v }),
    ("sensor.sequent_rtd_channels", .sizeList (fun key _ => s!"invalid {key}")
      fun c v => { c with sensors.sequentRtdChannels := v }),
    ("sensor.sequent_rtd_poll_ms", .int unused),
    ("sensor.sequent_rtd_expect_sensor_type", .text fun c v => { c with sensors.sequentRtdExpectSensorType := v }),
    ("sensor.sequent_rtd_resistance_min_ohm", .double fun c v => { c with sensors.sequentRtdResistanceMinOhm := v }),
    ("sensor.sequent_rtd_resistance_max_ohm", .double fun c v => { c with sensors.sequentRtdResistanceMaxOhm := v }),
    ("sensor.sequent_rtd_crosscheck_tol_c", .double unused),
    ("sensor.pressure_source", .text fun c v => { c with sensors.pressureSource := v }),
    ("sensor.dps310_i2c_addr", .int fun c v => { c with sensors.dps310I2cAddr := v }),
    ("sensor.uv_source", .text fun c v => { c with sensors.uvSource := v }),
    ("sensor.ads1115_i2c_addr", .int fun c v => { c with sensors.ads1115I2cAddr := v }),
    ("sensor.uv_ads1115_channel", .int fun c v => { c with sensors.uvAds1115Channel := v }),
    ("sensor.uv_full_scale_v", .double fun c v => { c with sensors.uvFullScaleV := v }),
    ("sensor.resistance_source", .text fun c v => { c with sensors.resistanceSource := v }),
    ("sensor.max31865_reference_ohm", .double fun c v => { c with sensors.max31865ReferenceOhm := v }),
    ("sensor.max31865_poll_ms", .int fun c v => { c with sensors.max31865PollMs := v }),
    ("sensor.max31865_sample_indices", .sizeList (fun key _ => s!"invalid {key}")
      fun c v => { c with sensors.max31865SampleIndices := v }),
    ("heater.output_lines", .sizeList (fun key lineNo => s!"invalid GPIO list for {key} at line {lineNo}")
      fun c v => { c with heaters.outputLines := v }),
    ("heater.temperature_channels", .sizeList (fun key _ => s!"invalid {key}")
      fun c v => { c with heaters.temperatureChannels := v }),
    ("heater.pwm_frequency_hz", .double fun c v => { c with heaters.pwmFrequencyHz := v }),
    ("heater.active_high", .bool unused),
    ("heater.debug_max_duty", .double fun c v => { c with heaters.debugMaxDuty := v }),
    ("heater.debug_max_seconds", .double fun c v => { c with heaters.debugMaxSeconds := v }),
    ("heater.max_duty", .double fun c v => { c with heaters.maxDuty := v }),
    ("hal.status_led_enabled", .bool fun c v => { c with hal.statusLedEnabled := v }),
    ("hal.mode_led_enabled", .bool fun c v => { c with hal.modeLedEnabled := v }),
    ("hal.status_led_line", .size fun c v => { c with hal.statusLedLine := v }),
    ("hal.mode_led_line", .size fun c v => { c with hal.modeLedLine := v }),
    ("stepper.steps_per_rev", .int fun c v => { c with stepper.stepsPerRev := v }),
    ("stepper.default_step_hz", .double fun c v => { c with stepper.defaultStepHz := v }),
    ("stepper.max_position_steps", .i64 fun c v => { c with stepper.maxPositionSteps := v }),
    ("stepper.enable_on_boot", .bool unused),
    ("stepper.lead_mm_per_rev", .double fun c v => { c with stepper.leadMmPerRev := v }),
    ("stepper.max_accel_steps_per_s2", .double fun c v => { c with stepper.maxAccelStepsPerS2 := v }),
    ("stepper.max_speed_mm_s", .double fun c v => { c with stepper.maxSpeedMmS := v }),
    ("stepper.max_direct_usteps", .i64 fun c v => { c with stepper.maxDirectUsteps := v }),
    ("stepper.stall_min_step_hz", .double fun c v => { c with stepper.stallMinStepHz := v }),
    ("stepper.stall_confirm_samples", .int fun c v => { c with stepper.stallConfirmSamples := v }),
    ("pull.max_step_hz", .double fun c v => { c with pull.maxStepHz := v }),
    ("pull.accel_steps_per_s2", .double fun c v => { c with pull.accelStepsPerS2 := v }),
    ("pull.microstep", .int fun c v => { c with pull.microstep := v }),
    ("pull.travel_full_steps", .int fun c v => { c with pull.travelFullSteps := v }),
    ("pull.hold_s", .double fun c v => { c with pull.holdS := v })]

/-- The keys of a motor. -/
def motorEntries : List (String × Entry MotorConfig) :=
  [("driver", .text fun c v => { c with driver := v }),
    ("gpio_chip", .text fun c v => { c with gpioChip := v }),
    ("spi_device", .text fun c v => { c with spiDevice := v }),
    ("cs_line", .size fun c v => { c with csLine := v }),
    ("enable_line", .size fun c v => { c with enableLine := v }),
    ("invert_direction", .bool unused),
    ("enable_active_low", .bool unused),
    ("run_current_a_rms", .double fun c v => { c with runCurrentARms := v }),
    ("hold_current_frac", .double fun c v => { c with holdCurrentFrac := v }),
    ("stealth_chop", .bool fun c v => { c with stealthChop := v }),
    ("spi_speed_hz", .int fun c v => { c with spiSpeedHz := (v % 2 ^ 32).toNat }),
    ("sense_resistor_ohm", .double fun c v => { c with senseResistorOhm := v }),
    ("retry_ms", .int fun c v => { c with retryMs := v }),
    ("accel_steps_per_s2", .double fun c v => { c with accelStepsPerS2 := v }),
    ("stall_detect", .text fun c v => { c with stallDetect := v }),
    ("stallguard_sgt", .int fun c v => { c with stallguardSgt := v }),
    ("stall_sg_min", .int fun c v => { c with stallSgMin := v }),
    ("samples", .sizeList (fun key lineNo => s!"invalid sample list for {key} at line {lineNo}")
      fun c v => { c with samples := v }),
    ("specimens", .specimens fun c v => { c with specimens := v })]

/-- The entry of a key. -/
def findEntry {C : Type} (table : List (String × Entry C)) (key : List Char) : Option (Entry C) :=
  (table.find? fun entry => entry.1 = String.ofList key).map Prod.snd

/-- What has been read: the configuration, the keys of the layout as files had it before, and whether each
motor's specimens were set. -/
structure Reading where
  config : OnboardConfig
  legacyLayoutKeys : List String
  specimensSet0 : Bool
  specimensSet1 : Bool

/-- A key of a motor is read and stored in that motor. -/
def readMotorKey (reading : Reading) (second : Bool) (suffix : List Char) (key : String) (value : List Char)
    (lineNo : ℕ) : Except String Reading :=
  match findEntry motorEntries suffix with
  | none => .error s!"unknown motor config key at line {lineNo}: {key}"
  | some entry => do
    let sets : Bool := String.ofList suffix = "specimens"
    if second then
      let motor ← entry.read nearest reading.config.motor1 key value lineNo
      return { reading with
        config := { reading.config with motor1 := motor }
        specimensSet1 := reading.specimensSet1 || sets }
    else
      let motor ← entry.read nearest reading.config.motor0 key value lineNo
      return { reading with
        config := { reading.config with motor0 := motor }
        specimensSet0 := reading.specimensSet0 || sets }

/-- A key is read and stored. -/
def readKey (reading : Reading) (key value : List Char) (lineNo : ℕ) : Except String Reading :=
  let name := String.ofList key
  let noted := if Wiring.layoutKeys.any (fun other => other = name) then
    { reading with legacyLayoutKeys := reading.legacyLayoutKeys ++ [name] } else reading
  match findEntry entries key with
  | some entry => do
    let config ← entry.read nearest noted.config name value lineNo
    return { noted with config := config }
  | none =>
    if "motor0.".toList.isPrefixOf key then readMotorKey nearest noted false (key.drop 7) name value lineNo
    else if "motor1.".toList.isPrefixOf key then readMotorKey nearest noted true (key.drop 7) name value lineNo
    else .error s!"unknown config key at line {lineNo}: {name}"

/-- A line of the file. -/
def readLine (reading : Reading) (numbered : List Char × ℕ) : Except String Reading :=
  let trimmed := trim Text.isSpace numbered.1
  if trimmed = [] ∨ trimmed.head? = some '#' ∨ trimmed.head? = some ';' then .ok reading
  else match cut '=' trimmed with
    | none => .error s!"invalid config line {numbered.2}: missing '='"
    | some (key, value) => readKey nearest reading (trim Text.isSpace key) (trim Text.isSpace value) numbered.2

end Coatheal.Config
