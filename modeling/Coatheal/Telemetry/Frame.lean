import Coatheal.Mission
import Coatheal.Sensors.Resistance

/-!
# Telemetry frames

`telemetry.cpp`: the record of a control tick as a DATA line. Fields are separated by commas, the values of a
list and the entries of a block by bars, and every decimal is written with the digits of its kind. A text is
a list of characters, and an empty one that would leave an entry without a value has a word in its place.
-/

namespace Coatheal.Telemetry

open Library Library.Text Library.PyText Sensors

/-- `SensorSnapshot`. Of the health of a component its state is sent. -/
structure SensorSnapshot where
  rtcValid : Bool
  timestampUtc : List Char
  ambientTempC : Double
  ambientPressureMbar : Double
  uv : Double
  sampleTempsC : List Double
  ambientTempValid : Bool
  ambientPressureValid : Bool
  uvValid : Bool
  sampleTempValid : List Bool
  ambientTempAgeMs : Int64
  ambientPressureAgeMs : Int64
  uvAgeMs : Int64
  sampleTempAgeMs : List Int64
  dps310 : ComponentState
  ads1115 : ComponentState
  sequentRtd : ComponentState
  sampleResistanceOhm : List Double

/-- `CtrlStatus`. -/
structure CtrlStatus where
  fallbackActive : Bool
  linkLossS : Double
  energyWh : Double
  budgetWh : Double
  budgetExhausted : Bool
  heatersActive : Int32
  queueDepth : UInt64
  plan : List Char
  tune : List Char
  debugArmed : Bool

/-- `StepperStatus`. The reason of a step loss is not sent. -/
structure StepperStatus where
  positionSteps : Int64
  targetSteps : Int64
  stepHz : Double
  microstep : Int32
  accelStepsPerS2 : Double
  runCurrentARms : Double
  thermalState : Int32
  positionMm : Double
  targetMm : Double
  enabled : Bool
  healthy : Bool
  moving : Bool
  holding : Bool
  holdRemainingS : Double
  pulsesTotal : UInt64
  missedDeadlines : UInt64
  lastSource : List Char
  stepLossEvents : UInt64
  positionUncertain : Bool
  zeroed : Bool
  seqName : List Char
  seqState : List Char

/-- `StatusFlags`. -/
structure StatusFlags where
  sdOk : Bool
  usbOk : Bool
  i2cOk : Bool
  spiOk : Bool
  linkOk : Bool
  tAmbientOk : Bool
  pAmbientOk : Bool
  uniformityOk : Bool
  overtempOk : Bool
  energyOk : Bool
  pwmOk : Bool
  stepperOk : Bool
  sampleTempOk : Bool
  simulated : Bool
  sequencePaused : Bool
  heaterInhibited : Bool
  resistanceOk : Bool

/-- `TelemetryRecord`. -/
structure TelemetryRecord where
  seq : UInt64
  phase : MissionPhase
  mode : SystemMode
  sensors : SensorSnapshot
  heaterDuty : List Double
  status : StatusFlags
  pwmState : ComponentState
  ctrl : CtrlStatus
  steppers : List StepperStatus

/-- `ToString` of a phase. -/
def phaseName : MissionPhase → List Char
  | .boot => "BOOT".toList
  | .ascent => "ASCENT".toList
  | .preFloat => "PRE_FLOAT".toList
  | .float => "FLOAT".toList
  | .descent => "DESCENT".toList
  | .landed => "LANDED".toList
  | .stopped => "STOPPED".toList

/-- `ToString` of a mode. -/
def modeName : SystemMode → List Char
  | .standby => "STANDBY".toList
  | .run => "RUN".toList
  | .safe => "SAFE".toList

/-- `ToString` of the state of a component. -/
def stateName : ComponentState → List Char
  | .disabled => "DISABLED".toList
  | .discovering => "DISCOVERING".toList
  | .ok => "OK".toList
  | .degraded => "DEGRADED".toList
  | .stale => "STALE".toList
  | .failed => "FAILED".toList

/-- Values with bars between them. -/
def bars (values : List (List Char)) : List Char := ['|'].intercalate values

/-- `key:value` entries with bars between them. -/
def block (entries : List (List Char × List Char)) : List Char :=
  bars (entries.map fun entry => entry.1 ++ ':' :: entry.2)

/-- A flag as a digit. -/
def bit (value : Bool) : List Char := if value then "1".toList else "0".toList

/-- A text, or a word in the place of an empty one. -/
def textOr (text : List Char) (word : String) : List Char := if text = [] then word.toList else text

/-- The flags of the status with the words for both of their values. -/
def statusWords : List ((StatusFlags → Bool) × String × String) :=
  [(StatusFlags.sdOk, "SD_OK", "SD_FAIL"),
    (StatusFlags.usbOk, "USB_OK", "USB_FAIL"),
    (StatusFlags.i2cOk, "I2C_OK", "I2C_FAIL"),
    (StatusFlags.spiOk, "SPI_OK", "SPI_FAIL"),
    (StatusFlags.linkOk, "LINK_OK", "LINK_FAIL"),
    (StatusFlags.tAmbientOk, "T_AMBIENT_OK", "T_AMBIENT_FAIL"),
    (StatusFlags.pAmbientOk, "P_AMBIENT_OK", "P_AMBIENT_FAIL"),
    (StatusFlags.uniformityOk, "UNIFORMITY_OK", "UNIFORMITY_FAIL"),
    (StatusFlags.overtempOk, "OVERTEMP_OK", "OVERTEMP_FAIL"),
    (StatusFlags.energyOk, "ENERGY_OK", "ENERGY_FAIL"),
    (StatusFlags.pwmOk, "PWM_OK", "PWM_FAIL"),
    (StatusFlags.stepperOk, "STEPPER_OK", "STEPPER_FAIL"),
    (StatusFlags.sampleTempOk, "SAMPLE_TEMP_OK", "SAMPLE_TEMP_FAIL"),
    (StatusFlags.simulated, "SIMULATED", "REAL_SENSORS"),
    (StatusFlags.sequencePaused, "SEQ_PAUSED", "SEQ_READY"),
    (StatusFlags.heaterInhibited, "HEATER_INHIBITED", "HEATER_ACTIVE"),
    (StatusFlags.resistanceOk, "RESISTANCE_OK", "RESISTANCE_FAIL")]

/-- `ToStatusBitfield`. -/
def toStatusBitfield (flags : StatusFlags) : List Char :=
  bars (statusWords.map fun (flag, yes, no) => (if flag flags then yes else no).toList)

/-- The name of a thermal state. -/
def thermalName (state : Int32) : List Char :=
  if state ≥ 2 then "hot".toList else if state = 1 then "warn".toList else "ok".toList

/-- A motor with a word in the place of each empty text. -/
def StepperStatus.spelled (st : StepperStatus) : StepperStatus :=
  { st with
    lastSource := textOr st.lastSource "-"
    seqName := textOr st.seqName "-"
    seqState := textOr st.seqState "idle" }

/-- The entries of a motor's segment. -/
def stepperEntries (st : StepperStatus) : List (List Char × List Char) :=
  [("pos".toList, showInt64 st.positionSteps),
    ("tgt".toList, showInt64 st.targetSteps),
    ("hz".toList, showFixed 2 st.stepHz),
    ("us".toList, showInt st.microstep.toInt),
    ("ok".toList, bit st.healthy),
    ("en".toList, bit st.enabled),
    ("mv".toList, bit st.moving),
    ("hold".toList, bit st.holding),
    ("hold_s".toList, showFixed 2 st.holdRemainingS),
    ("pulses".toList, showNat st.pulsesTotal.toNat),
    ("missed".toList, showNat st.missedDeadlines.toNat),
    ("src".toList, st.lastSource),
    ("zeroed".toList, bit st.zeroed),
    ("seq".toList, st.seqName),
    ("seqst".toList, st.seqState),
    ("amps".toList, showFixed 2 st.runCurrentARms),
    ("acc".toList, showFixed 1 st.accelStepsPerS2),
    ("mm".toList, showFixed 3 st.positionMm),
    ("mm_tgt".toList, showFixed 3 st.targetMm),
    ("therm".toList, thermalName st.thermalState),
    ("loss".toList, showNat st.stepLossEvents.toNat),
    ("unc".toList, bit st.positionUncertain)]

/-- `AppendStepperSegment`. -/
def stepperSegment (st : StepperStatus) (motorIndex : Int32) : List Char :=
  "STEPPER".toList ++ showInt motorIndex.toInt ++ '=' :: block (stepperEntries st.spelled)

/-- The controller with a word in the place of each empty text. -/
def CtrlStatus.spelled (ctrl : CtrlStatus) : CtrlStatus :=
  { ctrl with plan := textOr ctrl.plan "none", tune := textOr ctrl.tune "-" }

/-- The entries of the controller's segment. -/
def ctrlEntries (ctrl : CtrlStatus) : List (List Char × List Char) :=
  [("fallback".toList, bit ctrl.fallbackActive),
    ("link_loss_s".toList, showFixed 1 ctrl.linkLossS),
    ("energy_wh".toList, showFixed 2 ctrl.energyWh),
    ("budget_wh".toList, showFixed 1 ctrl.budgetWh),
    ("budget_exhausted".toList, bit ctrl.budgetExhausted),
    ("heaters_active".toList, showInt ctrl.heatersActive.toInt),
    ("queue".toList, showNat ctrl.queueDepth.toNat),
    ("plan".toList, ctrl.plan),
    ("debug".toList, bit ctrl.debugArmed),
    ("tune".toList, ctrl.tune)]

/-- A reading is above zero. -/
def isPositive (value : Double) : Bool :=
  match value with
  | ⟨false, .finite size⟩ => decide (0 < size)
  | ⟨false, .infinite⟩ => true
  | _ => false

/-- A resistance, or a dash where none was measured. -/
def showResistance (resistance : Option Double) : List Char := (resistance.map (showFixed 3)).getD "-".toList

/-- Entries for the three readings of the surroundings and for each sample. -/
def sensorEntries {α : Type} (ambientTemp ambientPressure uv : α) (samples : ℕ) (sample : ℕ → α) :
    List (List Char × α) :=
  [("AT".toList, ambientTemp), ("AP".toList, ambientPressure), ("UV".toList, uv)] ++
    (List.range samples).map fun i => ('S' :: showNat i, sample i)

namespace SensorSnapshot

variable (sensors : SensorSnapshot)

/-- The resistance of each sample, if one was measured. -/
def resistances : List (Option Double) :=
  (List.range sensors.sampleTempsC.length).map fun i => sensors.sampleResistanceOhm[i]?.filter isPositive

/-- The entries that tell which readings are valid. -/
def validEntries : List (List Char × Bool) :=
  sensorEntries sensors.ambientTempValid sensors.ambientPressureValid sensors.uvValid
    sensors.sampleTempsC.length fun i => sensors.sampleTempValid.getD i false

/-- The entries that tell how old the readings are. -/
def ageEntries : List (List Char × Int64) :=
  sensorEntries sensors.ambientTempAgeMs sensors.ambientPressureAgeMs sensors.uvAgeMs
    sensors.sampleTempsC.length fun i => sensors.sampleTempAgeMs.getD i (-1)

end SensorSnapshot

namespace TelemetryRecord

variable (record : TelemetryRecord)

/-- The state of a motor's driver; a motor that is not there has failed. -/
def motorState (motor : ℕ) : List Char :=
  if record.steppers[motor]?.any StepperStatus.healthy then "OK".toList else "FAILED".toList

/-- The entries of the states of the components. -/
def componentEntries : List (List Char × List Char) :=
  [("DPS310".toList, stateName record.sensors.dps310),
    ("ADS1115".toList, stateName record.sensors.ads1115),
    ("SEQUENT_RTD".toList, stateName record.sensors.sequentRtd),
    ("MOTOR0".toList, record.motorState 0),
    ("MOTOR1".toList, record.motorState 1),
    ("PWM".toList, stateName record.pwmState)]

/-- The fields of a frame before the samples. -/
def headFields (sessionId : List Char) : List (List Char) :=
  ["DATA".toList, sessionId, showNat record.seq.toNat, record.sensors.timestampUtc, bit record.sensors.rtcValid,
    showFixed 2 record.sensors.ambientTempC, showFixed 2 record.sensors.ambientPressureMbar,
    showFixed 2 record.sensors.uv]

/-- The field of the heaters. -/
def heaterField : List Char := "HEATER_DUTY=".toList ++ bars (record.heaterDuty.map (showFixed 3))

/-- The fields between the heaters and the motors. -/
def blockFields : List (List Char) :=
  ["RESISTANCE=".toList ++ bars (record.sensors.resistances.map showResistance),
    "PHASE=".toList ++ phaseName record.phase,
    "MODE=".toList ++ modeName record.mode,
    "STATUS=".toList ++ toStatusBitfield record.status,
    "SENSOR_VALID=".toList ++ block (record.sensors.validEntries.map (Prod.map id bit)),
    "SENSOR_AGE_MS=".toList ++ block (record.sensors.ageEntries.map (Prod.map id showInt64)),
    "COMPONENT_STATE=".toList ++ block record.componentEntries,
    "CTRL=".toList ++ block (ctrlEntries record.ctrl.spelled)]

/-- The fields of the motors. The index of a motor is cast to an int. -/
def stepperFields : List (List Char) :=
  record.steppers.zipIdx.map fun entry => stepperSegment entry.1 (Int32.ofNat entry.2)

/-- The fields of a frame. -/
def fields (sessionId : List Char) : List (List Char) :=
  record.headFields sessionId ++ record.sensors.sampleTempsC.map (showFixed 2) ++
    record.heaterField :: (record.blockFields ++ record.stepperFields)

/-- `SerializeTelemetryDataFrame`. -/
def serializeTelemetryDataFrame (sessionId : List Char) : List Char := [','].intercalate (record.fields sessionId)

end TelemetryRecord

/-- The age of a frame in seconds, zero for one that was queued after now. -/
def frameAge (queuedEpochS nowEpochS : ℤ) : ℕ := (nowEpochS - queuedEpochS).toNat

/-- `TagFrameForTransmit`. -/
def tagFrameForTransmit (frame : List Char) (queuedEpochS nowEpochS : ℤ) : List Char :=
  if "DATA,".toList.isPrefixOf frame then frame ++ ",TX=".toList ++ showNat (frameAge queuedEpochS nowEpochS) else frame

end Coatheal.Telemetry
