import Coatheal.Ground.Layout
import Coatheal.Library.Checked
import Coatheal.Library.Json

/-!
# The alarms of a snapshot

`gui/state.py`, as far as the alarms read it, and `evaluate` of `gui/alarms.py`:
which alarms a snapshot of the onboard raises, in the order in which the strip
shows them. An elapsed time that is infinite or not a number cannot be written,
so that such a snapshot has no alarms at all. No two alarms have one key.
-/

namespace Coatheal.Ground

open Library Library.Text Library.PyText

/-- A float with its sign. -/
def signed (negative : Bool) (size : ℚ) : ℚ := if negative then -size else size

/-- `<=` of two floats. -/
def floatLe (a b : Double) : Bool :=
  match a.magnitude, b.magnitude with
  | .nan, _ => false
  | _, .nan => false
  | .infinite, .infinite => a.negative || !b.negative
  | .infinite, .finite _ => a.negative
  | .finite _, .infinite => !b.negative
  | .finite x, .finite y => decide (signed a.negative x ≤ signed b.negative y)

/-- The product of two floats. -/
def floatMul (a b : Double) : Double :=
  ⟨a.negative ^^ b.negative, match a.magnitude, b.magnitude with
    | .nan, _ => .nan
    | _, .nan => .nan
    | .infinite, .finite y => if y = 0 then .nan else .infinite
    | .finite x, .infinite => if x = 0 then .nan else .infinite
    | .infinite, .infinite => .infinite
    | .finite x, .finite y => doubleOf (x * y)⟩

/-- A float counts as true. -/
def truthy (value : Double) : Bool := decide (value.magnitude ≠ .finite 0)

/-- A whole float of the source. -/
def wholeFloat (value : ℕ) : Double := ⟨false, .finite value⟩

/-- `{value:.<decimals>f}`. -/
def formatFloat (decimals : ℕ) (value : Double) : List Char :=
  let size := match value.magnitude with
    | .nan => "nan".toList
    | .infinite => "inf".toList
    | .finite size => if decimals = 0 then showNat (roundHalfEven size).toNat else showMagnitude decimals (.finite size)
  if value.negative && decide (value.magnitude ≠ .nan) then '-' :: size else size

/-- `format_elapsed` of `series_store.py`. -/
def formatElapsed (seconds : Double) : Except PyError (List Char) :=
  match seconds.magnitude with
  | .nan => .error .valueError
  | .infinite => .error .overflowError
  | .finite size =>
    let sign := if seconds.negative && decide (size ≠ 0) then "-".toList else []
    let whole := (roundHalfEven size).toNat
    .ok (sign ++ padded 2 (whole / 3600) ++ ':' :: padded 2 (whole % 3600 / 60) ++ ':' :: padded 2 (whole % 3600 % 60))

/-- What the alarms read of a motor. -/
structure MotorState where
  motorId : ℤ
  moving : Bool := false
  holding : Bool := false
  thermal : Option (List Char) := none
  stepLoss : Option ℤ := none
  positionUncertain : Option Bool := none
deriving DecidableEq

/-- What the alarms read of a snapshot. -/
structure OnboardState where
  havePacket : Bool
  statusTokens : List (List Char)
  componentState : Dict (List Char)
  sampleTemps : List (Option Double)
  rtcValid : Bool
  motors : List MotorState
  fallback : Option Bool
  linkLossS : Option Double
  energyWh : Option Double
  budgetWh : Option Double
  budgetExhausted : Option Bool
  queueDepth : Option ℤ
  planState : Option (List Char)
  debugArmed : Option Bool
  tuneChannel : Option (List Char)
  silence : Bool
  linkAgeS : Option Double
  replay : Bool
  replayBehindS : Double
  replayEtaS : Option Double
  replayLivePanels : Bool
  replayBacklogFrames : Option ℤ
  layout : Layout
deriving DecidableEq

/-- `sample_of_heater`. -/
def Layout.sampleOfHeater (layout : Layout) (heater : ℕ) : Option ℤ := layout.heaterSamples[heater]?

namespace OnboardState

variable (state : OnboardState)

/-- `flag`. -/
def flag (token : String) : Bool := state.statusTokens.contains token.toList

/-- `heaters_inhibited`. -/
def heatersInhibited : Bool := state.flag "HEATER_INHIBITED"

/-- `heater_temp_valid`. A negative sample counts from the end. -/
def heaterTempValid (heater : ℕ) : Except PyError Bool :=
  match state.layout.sampleOfHeater heater with
  | none => .ok false
  | some sample =>
    let count : ℤ := state.sampleTemps.length
    if count ≤ sample then .ok false
    else
      let place := if sample < 0 then sample + count else sample
      if place < 0 then .error .indexError else .ok (state.sampleTemps.getD place.toNat none).isSome

/-- `motor`. -/
def motor (motorId : ℕ) : MotorState := state.motors.getD motorId ⟨motorId, false, false, none, none, none⟩

end OnboardState

/-- How grave an alarm is. -/
inductive Severity where
  | red
  | amber
deriving DecidableEq

/-- An alarm. -/
structure Alarm where
  key : List Char
  text : List Char
  severity : Severity
  acked : Bool
deriving DecidableEq

/-- An alarm that is just raised. -/
def Alarm.raised (key : String) (severity : Severity) (text : List Char) : Alarm := ⟨key.toList, text, severity, false⟩

/-- `_SENSOR_COMPONENTS`. -/
def sensorComponents : List (List Char) := ["DPS310", "ADS1115", "SEQUENT_RTD", "PWM"].map String.toList

/-- `_SENSOR_FLAGS`. -/
def sensorFlags : List String := ["RESISTANCE_FAIL", "SPI_FAIL", "I2C_FAIL", "SD_FAIL", "USB_FAIL", "PWM_FAIL"]

/-- `_COMPONENT_BAD`. -/
def componentBad : List (List Char) := ["DEGRADED", "STALE", "FAILED"].map String.toList

/-- `QUEUE_ALARM_FRAMES`. -/
def queueAlarmFrames : ℤ := 100

/-- `LINK_STALE_S`. -/
def linkStaleS : Double := wholeFloat 5

/-- The alarm of a key, if it is raised. -/
def alarmIf (raised : Bool) (alarm : Alarm) : List Alarm := if raised then [alarm] else []

/-- Words with blanks between them. -/
def joined (words : List (List Char)) : List Char := [' '].intercalate words

section

variable (state : OnboardState)

/-- The time that a replay still takes. -/
def replayEta : Except PyError (List Char) :=
  match state.replayEtaS with
  | some etaS => if truthy etaS then (formatElapsed etaS).map (", ETA ".toList ++ ·) else .ok []
  | none => .ok []

/-- The alarm of a replay. -/
def replayAlarm : Except PyError (List Alarm) :=
  if state.replay then do
    let eta ← replayEta state
    if state.replayLivePanels then
      let count := match state.replayBacklogFrames with
        | some frames => if frames ≠ 0 then showInt frames ++ " queued frames".toList else "queued frames".toList
        | none => "queued frames".toList
      return [Alarm.raised "REPLAY" .amber ("BACKLOG — onboard replaying ".toList ++ count ++ eta ++
        "; panels are LIVE, the replay fills plots and logs".toList)]
    else
      let behind ← formatElapsed state.replayBehindS
      return [Alarm.raised "REPLAY" .amber ("REPLAY — onboard backlog ".toList ++ behind ++ " behind".toList ++ eta ++
        "; panels show the last LIVE frame, not the replay".toList)]
  else .ok []

/-- The alarm of a latched over-temperature. -/
def overtempAlarm : List Alarm :=
  alarmIf (state.flag "OVERTEMP_FAIL")
    (.raised "OVERTEMP" .red "OVERTEMP latched — heaters forced off until RESET_CTRL".toList)

/-- The name of the sample of a heater. -/
def sampleName (heater : ℕ) : List Char :=
  'S' :: match state.layout.sampleOfHeater heater with
    | some sample => showInt sample
    | none => "None".toList

/-- The alarm of a heated sample without a temperature. -/
def sampleTempAlarm : Except PyError (List Alarm) :=
  if state.flag "SAMPLE_TEMP_FAIL" then do
    let valid ← (List.range 6).mapM state.heaterTempValid
    let invalid := ((List.range 6).zip valid).filterMap fun heater =>
      if heater.2 then none else some (sampleName state heater.1)
    let detail := if invalid = [] then "a heated channel".toList else joined invalid
    return [Alarm.raised "SAMPLE_TEMP" .red ("SAMPLE_TEMP FAIL — ".toList ++ detail ++ " invalid".toList)]
  else .ok []

/-- The alarm of an active fallback. -/
def fallbackAlarm : List Alarm :=
  let age := match state.linkLossS with
    | some seconds => " (".toList ++ formatFloat 0 seconds ++ " s)".toList
    | none => []
  alarmIf (state.fallback = some true) (.raised "FALLBACK" .red ("LINK-LOSS FALLBACK active onboard".toList ++ age))

/-- The alarm of a paused sequence. -/
def seqPausedAlarm : List Alarm :=
  alarmIf (state.flag "SEQ_PAUSED")
    (.raised "SEQ_PAUSED" .red "bend sequence paused / faulted — BENDSEQ_STATUS".toList)

/-- The alarm of the energy budget. -/
def energyAlarm : List Alarm :=
  if state.flag "ENERGY_FAIL" ∨ state.budgetExhausted = some true then
    [.raised "ENERGY" .red "heater energy budget exhausted — heaters latched off".toList]
  else
    match state.energyWh, state.budgetWh with
    | some energy, some budget =>
      alarmIf (truthy budget && floatLe (floatMul ⟨false, doubleOf (4 / 5)⟩ budget) energy)
        (.raised "ENERGY" .amber ("heater energy ".toList ++ formatFloat 1 energy ++ " Wh ≥ 80 % of the ".toList ++
          formatFloat 0 budget ++ " Wh budget — reduce targets or duty".toList))
    | _, _ => []

/-- The alarm of a clock that is not synchronised. -/
def rtcAlarm : List Alarm :=
  alarmIf (!state.rtcValid) (.raised "RTC" .amber ("Onboard clock unsynchronised — no NTP sync since boot; ".toList ++
    "DATA timestamps untrusted (gs_rx_utc is authoritative)".toList))

/-- The alarm of armed debugging. -/
def debugArmAlarm : List Alarm :=
  alarmIf (state.debugArmed = some true) (.raised "DEBUG_ARM" .amber
    ("DEBUG ARM active — open-loop heater duty allowed ".toList ++
      "without PT100 feedback (DISARM_DEBUG to end)".toList))

/-- The alarm of a tuning heater. -/
def pidTuneAlarm : List Alarm :=
  match state.tuneChannel with
  | some channel => alarmIf (channel ≠ []) (.raised "PID_TUNE" .amber
      ("PID autotune running on ".toList ++ channel ++
        " — heaters under tuner control (PID_TUNE_ABORT to stop)".toList))
  | none => []

/-- The alarms of a motor: its failure, the temperature of its driver and lost steps. -/
def motorAlarms (motorId : ℕ) : List Alarm :=
  let motor := state.motor motorId
  let number := showNat motorId
  let name := 'M' :: number
  let count := match motor.stepLoss with
    | some events =>
      if events ≠ 0 then " (".toList ++ showInt events ++ " event".toList ++ (if events ≠ 1 then ['s'] else []) ++ [')']
      else []
    | none => []
  alarmIf (state.componentState.get? ("MOTOR".toList ++ number) = some "FAILED".toList)
      ⟨"MOTOR".toList ++ number, name ++ " FAILED — CHECK MOTOR".toList ++ number, .red, false⟩ ++
    (if motor.thermal = some "hot".toList then
      [⟨name ++ "_TEMP".toList, name ++ " driver OVER-TEMPERATURE (≥150 °C die) — ".toList ++
        "motor disabled by safety; let it cool, then ENABLE".toList, .red, false⟩]
    else alarmIf (motor.thermal = some "warn".toList)
      ⟨name ++ "_TEMP".toList, name ++ " driver hot (≥120 °C die pre-warning) — ".toList ++
        "reduce run current or duty".toList, .amber, false⟩) ++
    alarmIf (motor.positionUncertain = some true)
      ⟨name ++ "_STEPLOSS".toList, name ++ " STEP LOSS".toList ++ count ++ " — position uncertain; CHECK MOTOR".toList ++
        number ++ " says why. Check the mechanism, then SET ZERO or STEPLOSS_ACK ".toList ++ number, .red, false⟩

/-- The alarm of inhibited heaters. -/
def inhibitedAlarm : List Alarm :=
  let moving := (state.motors.filter fun motor => motor.moving || motor.holding).map fun motor =>
    'M' :: showInt motor.motorId
  let who := if moving = [] then [] else " (".toList ++ joined moving ++ " moving)".toList
  alarmIf state.heatersInhibited (.raised "HEATERS_INHIBITED" .amber ("heaters inhibited".toList ++ who))

/-- The alarm of sensors that are not well. -/
def sensorAlarm : List Alarm :=
  let badComponents := (state.componentState.filter fun entry =>
    sensorComponents.contains entry.1 && componentBad.contains entry.2).map fun entry => entry.1 ++ ':' :: entry.2
  let badFlags := (sensorFlags.filter state.flag).map String.toList
  alarmIf (decide (badComponents ≠ []) || decide (badFlags ≠ []))
    (.raised "SENSOR" .red ("SENSOR — ".toList ++ joined (badComponents ++ badFlags)))

/-- The alarm of a long queue, unless the replay says so already. -/
def queueAlarm : List Alarm :=
  match state.queueDepth with
  | some depth => alarmIf (decide (queueAlarmFrames < depth) && !(state.replay && state.replayLivePanels))
      (.raised "RX_QUEUE" .amber ("onboard queue backlog ".toList ++ showInt depth ++ " frames (draining)".toList))
  | none => []

/-- The alarm of a fallback plan. -/
def planAlarm : List Alarm :=
  if state.planState = some "running".toList then
    [.raised "PLAN" .amber "fallback plan RUNNING onboard — autonomous bend in progress".toList]
  else alarmIf (state.planState = some "failed".toList)
    (.raised "PLAN" .red "fallback plan FAILED onboard — FALLBACK_STATUS for detail".toList)

/-- The alarm of a link without frames. -/
def linkAlarm : List Alarm :=
  match state.linkAgeS with
  | some age => alarmIf (!state.silence && floatLe linkStaleS age)
      (.raised "LINK" .red ("LINK STALE — no frame for ".toList ++ formatFloat 0 age ++ " s".toList))
  | none => []

/-- The alarms that a packet raises. -/
def packetAlarms : Except PyError (List Alarm) :=
  if state.havePacket then do
    let sampleTemp ← sampleTempAlarm state
    return overtempAlarm state ++ sampleTemp ++ fallbackAlarm state ++ seqPausedAlarm state ++ energyAlarm state ++
      rtcAlarm state ++ debugArmAlarm state ++ pidTuneAlarm state ++ motorAlarms state 0 ++ motorAlarms state 1 ++
      inhibitedAlarm state ++ sensorAlarm state ++ queueAlarm state ++ planAlarm state
  else .ok []

/-- `evaluate`. -/
def evaluate : Except PyError (List Alarm) := do
  let replay ← replayAlarm state
  let packet ← packetAlarms state
  return replay ++ packet ++ linkAlarm state

end

/-- The keys of all alarms, in the order of the strip. -/
def alarmKeys : List (List Char) :=
  ["REPLAY", "OVERTEMP", "SAMPLE_TEMP", "FALLBACK", "SEQ_PAUSED", "ENERGY", "RTC", "DEBUG_ARM", "PID_TUNE", "MOTOR0",
    "M0_TEMP", "M0_STEPLOSS", "MOTOR1", "M1_TEMP", "M1_STEPLOSS", "HEATERS_INHIBITED", "SENSOR", "RX_QUEUE", "PLAN",
    "LINK"].map String.toList

/-- The keys of some alarms. -/
def keysOf (alarms : List Alarm) : List (List Char) := alarms.map Alarm.key

/-- A part of the strip raises its own alarms only. -/
theorem alarmIf_keys (raised : Bool) (alarm : Alarm) : (keysOf (alarmIf raised alarm)).Sublist [alarm.key] := by
  cases raised with
  | true => exact List.Sublist.refl _
  | false => exact List.nil_sublist _

/-- The parts of the strip raise theirs. -/
theorem keysOf_append {front back : List Alarm} {frontKeys backKeys : List (List Char)}
    (hfront : (keysOf front).Sublist frontKeys) (hback : (keysOf back).Sublist backKeys) :
    (keysOf (front ++ back)).Sublist (frontKeys ++ backKeys) := by
  rw [keysOf, List.map_append]
  exact hfront.append hback

variable {state : OnboardState} {alarms : List Alarm}

/-- A replay raises its alarm. -/
theorem replayAlarm_keys (h : replayAlarm state = .ok alarms) : (keysOf alarms).Sublist ["REPLAY".toList] := by
  rw [replayAlarm] at h
  split at h
  · obtain ⟨eta, _, hrest⟩ := Checked.bind_ok h
    split at hrest
    · rw [← Except.ok.inj hrest]
      exact List.Sublist.refl _
    · obtain ⟨behind, _, hdone⟩ := Checked.bind_ok hrest
      rw [← Except.ok.inj hdone]
      exact List.Sublist.refl _
  · rw [← Except.ok.inj h]
    exact List.nil_sublist _

/-- A heated sample without a temperature raises its alarm. -/
theorem sampleTempAlarm_keys (h : sampleTempAlarm state = .ok alarms) :
    (keysOf alarms).Sublist ["SAMPLE_TEMP".toList] := by
  rw [sampleTempAlarm] at h
  split at h
  · obtain ⟨valid, _, hdone⟩ := Checked.bind_ok h
    rw [← Except.ok.inj hdone]
    exact List.Sublist.refl _
  · rw [← Except.ok.inj h]
    exact List.nil_sublist _

/-- An exhausted budget and one that is nearly used up raise one alarm. -/
theorem energyAlarm_keys (state : OnboardState) : (keysOf (energyAlarm state)).Sublist ["ENERGY".toList] := by
  rw [energyAlarm]
  split
  · exact List.Sublist.refl _
  · split
    · exact alarmIf_keys _ _
    · exact List.nil_sublist _

/-- A tuning heater raises its alarm. -/
theorem pidTuneAlarm_keys (state : OnboardState) : (keysOf (pidTuneAlarm state)).Sublist ["PID_TUNE".toList] := by
  rw [pidTuneAlarm]
  split
  · exact alarmIf_keys _ _
  · exact List.nil_sublist _

/-- A motor raises an alarm of each kind at most once. -/
theorem motorAlarms_keys (state : OnboardState) (motorId : ℕ) : (keysOf (motorAlarms state motorId)).Sublist
    ["MOTOR".toList ++ showNat motorId, 'M' :: showNat motorId ++ "_TEMP".toList,
      'M' :: showNat motorId ++ "_STEPLOSS".toList] := by
  rw [motorAlarms]
  refine @keysOf_append _ _ [_, _] [_] (@keysOf_append _ _ [_] [_] (alarmIf_keys _ _) ?_) (alarmIf_keys _ _)
  split
  · exact List.Sublist.refl _
  · exact alarmIf_keys _ _

/-- A long queue raises its alarm. -/
theorem queueAlarm_keys (state : OnboardState) : (keysOf (queueAlarm state)).Sublist ["RX_QUEUE".toList] := by
  rw [queueAlarm]
  split
  · exact alarmIf_keys _ _
  · exact List.nil_sublist _

/-- A running plan and a failed one raise one alarm. -/
theorem planAlarm_keys (state : OnboardState) : (keysOf (planAlarm state)).Sublist ["PLAN".toList] := by
  rw [planAlarm]
  split
  · exact List.Sublist.refl _
  · exact alarmIf_keys _ _

/-- A link without frames raises its alarm. -/
theorem linkAlarm_keys (state : OnboardState) : (keysOf (linkAlarm state)).Sublist ["LINK".toList] := by
  rw [linkAlarm]
  split
  · exact alarmIf_keys _ _
  · exact List.nil_sublist _

/-- The keys of the alarms that a packet raises. -/
def packetKeys : List (List Char) := alarmKeys.tail.dropLast

/-- A packet raises each of its alarms at most once. -/
theorem packetAlarms_keys (h : packetAlarms state = .ok alarms) : (keysOf alarms).Sublist packetKeys := by
  rw [packetAlarms] at h
  split at h
  · obtain ⟨sampleTemp, hsample, hdone⟩ := Checked.bind_ok h
    rw [← Except.ok.inj hdone]
    have hovertemp : (keysOf (overtempAlarm state)).Sublist ["OVERTEMP".toList] := alarmIf_keys _ _
    have hfallback : (keysOf (fallbackAlarm state)).Sublist ["FALLBACK".toList] := alarmIf_keys _ _
    have hpaused : (keysOf (seqPausedAlarm state)).Sublist ["SEQ_PAUSED".toList] := alarmIf_keys _ _
    have hrtc : (keysOf (rtcAlarm state)).Sublist ["RTC".toList] := alarmIf_keys _ _
    have hdebug : (keysOf (debugArmAlarm state)).Sublist ["DEBUG_ARM".toList] := alarmIf_keys _ _
    have hinhibited : (keysOf (inhibitedAlarm state)).Sublist ["HEATERS_INHIBITED".toList] := alarmIf_keys _ _
    have hsensor : (keysOf (sensorAlarm state)).Sublist ["SENSOR".toList] := alarmIf_keys _ _
    have hfirst := keysOf_append (keysOf_append (keysOf_append hovertemp (sampleTempAlarm_keys hsample)) hfallback)
      hpaused
    have hsecond := keysOf_append (keysOf_append (keysOf_append (keysOf_append hfirst (energyAlarm_keys state)) hrtc)
      hdebug) (pidTuneAlarm_keys state)
    have hthird := keysOf_append (keysOf_append (keysOf_append hsecond (motorAlarms_keys state 0))
      (motorAlarms_keys state 1)) hinhibited
    exact keysOf_append (keysOf_append (keysOf_append hthird hsensor) (queueAlarm_keys state)) (planAlarm_keys state)
  · rw [← Except.ok.inj h]
    exact List.nil_sublist _

/-- A snapshot raises each alarm at most once. -/
theorem evaluate_keys (h : evaluate state = .ok alarms) : (keysOf alarms).Sublist alarmKeys := by
  rw [evaluate] at h
  obtain ⟨replay, hreplay, hrest⟩ := Checked.bind_ok h
  obtain ⟨packet, hpacket, hdone⟩ := Checked.bind_ok hrest
  rw [← Except.ok.inj hdone]
  exact keysOf_append (keysOf_append (replayAlarm_keys hreplay) (packetAlarms_keys hpacket)) (linkAlarm_keys state)

/-- No two alarms of a snapshot have one key. -/
theorem nodup_evaluate (h : evaluate state = .ok alarms) : (keysOf alarms).Nodup :=
  (evaluate_keys h).nodup (by decide +kernel)

end Coatheal.Ground
