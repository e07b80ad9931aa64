import Coatheal.Library.PyText

/-!
# What the ground station reads and answers

`protocol.py`: the packet of a DATA line, the events of EVT lines, and the ACK
lines, the one for a frame that was read and the one for a raw line that could
not be. A field that is no number, and every other parse error, is an absent
result. A dictionary keeps the place of a key that is set again.
-/

namespace Coatheal.Ground

open Library Library.Text Library.PyText

/-- The float zero. -/
def zeroFloat : Double := ⟨false, .finite 0⟩

/-- One motor's segment of a packet. What an older onboard did not send is absent or empty. -/
structure StepperSnapshot where
  position : ℤ := 0
  target : ℤ := 0
  hz : Double := zeroFloat
  microstep : ℤ := 1
  enabled : Bool := false
  healthy : Bool := false
  moving : Bool := false
  holding : Bool := false
  holdS : Double := zeroFloat
  pulses : ℤ := 0
  missedDeadlines : ℤ := 0
  source : List Char := []
  zeroed : Option Bool := none
  seqName : List Char := []
  seqState : List Char := []
  amps : Option Double := none
  accel : Option Double := none
  mm : Option Double := none
  mmTgt : Option Double := none
  thermal : Option (List Char) := none
  stepLoss : Option ℤ := none
  positionUncertain : Option Bool := none
deriving DecidableEq

/-- A dictionary, in the order of insertion. -/
abbrev Dict (α : Type) := List (List Char × α)

/-- Set a key, in its place if it is there. -/
def Dict.set {α : Type} (dict : Dict α) (key : List Char) (value : α) : Dict α :=
  if dict.any fun entry => entry.1 = key then
    dict.map fun entry => if entry.1 = key then (key, value) else entry
  else dict ++ [(key, value)]

/-- A telemetry packet. The snapshots go by motor id; `stepper` is the first of them. -/
structure TelemetryPacket where
  sessionId : List Char
  seq : ℤ
  timestamp : List Char
  rtcValid : ℤ
  ambientTempC : Double
  ambientPressureMbar : Double
  uv : Double
  sampleTempsC : List Double
  heaterDuty : List Double
  sampleResistanceOhm : List (Option Double)
  phase : List Char
  status : List Char
  mode : List Char
  sensorValid : Dict Bool
  sensorAgeMs : Dict ℤ
  componentState : Dict (List Char)
  steppers : List (ℤ × StepperSnapshot)
  stepper : Option StepperSnapshot
  ctrl : Dict (List Char)
  txAgeS : Option Double
deriving DecidableEq

/-- `raw not in ("0", "false", "False")`. -/
def flag (raw : List Char) : Bool := !(["0".toList, "false".toList, "False".toList].contains raw)

/-- What the value of a key does to a snapshot. -/
def stepperFields : List (String × (List Char → StepperSnapshot → Option StepperSnapshot)) :=
  [("pos", fun raw s => (int raw).map fun value => { s with position := value }),
    ("tgt", fun raw s => (int raw).map fun value => { s with target := value }),
    ("hz", fun raw s => (float raw).map fun value => { s with hz := value }),
    ("us", fun raw s => (int raw).map fun value => { s with microstep := value }),
    ("en", fun raw s => some { s with enabled := flag raw }),
    ("ok", fun raw s => some { s with healthy := flag raw }),
    ("mv", fun raw s => some { s with moving := flag raw }),
    ("hold", fun raw s => some { s with holding := flag raw }),
    ("hold_s", fun raw s => (float raw).map fun value => { s with holdS := value }),
    ("pulses", fun raw s => (int raw).map fun value => { s with pulses := value }),
    ("missed", fun raw s => (int raw).map fun value => { s with missedDeadlines := value }),
    ("src", fun raw s => some { s with source := raw }),
    ("zeroed", fun raw s => some { s with zeroed := some (flag raw) }),
    ("seq", fun raw s => some { s with seqName := if raw = "-".toList then [] else raw }),
    ("seqst", fun raw s => some { s with seqState := raw }),
    ("amps", fun raw s => (float raw).map fun value => { s with amps := some value }),
    ("acc", fun raw s => (float raw).map fun value => { s with accel := some value }),
    ("mm", fun raw s => (float raw).map fun value => { s with mm := some value }),
    ("mm_tgt", fun raw s => (float raw).map fun value => { s with mmTgt := some value }),
    ("therm", fun raw s => some { s with thermal := some raw }),
    ("loss", fun raw s => (int raw).map fun value => { s with stepLoss := some value }),
    ("unc", fun raw s => some { s with positionUncertain := some (flag raw) })]

/-- Read one `key:value` piece; an unknown key is ignored. -/
def setStepperField (s : StepperSnapshot) (key raw : List Char) : Option StepperSnapshot :=
  match stepperFields.find? fun field => field.1.toList = key with
  | some field => field.2 raw s
  | none => some s

/-- `_parse_stepper_segment`. A piece without a colon is malformed; an empty one is passed over. -/
def parseStepperSegment (value : List Char) : Option StepperSnapshot :=
  (value.splitOn '|').foldlM (fun s piece =>
    if piece = [] then some s
    else (cut ':' piece).bind fun entry => setStepperField s entry.1 entry.2) {}

/-- The part after the first equals sign. -/
def afterEquals (token : List Char) : List Char :=
  match cut '=' token with
  | some (_, value) => value
  | none => []

/-- The `key:value` pieces of a block; others are passed over. -/
def pairs (value : List Char) : List (List Char × List Char) := (value.splitOn '|').filterMap (cut ':')

/-- The token begins with a text. -/
def startsWith (start : String) (token : List Char) : Bool := start.toList.isPrefixOf token

/-- What the tokens after the heater duties have told so far. -/
structure Sections where
  phase : List Char := []
  status : List Char := []
  mode : List Char := []
  sampleResistanceOhm : List (Option Double) := []
  legacyStepper : Option StepperSnapshot := none
  indexedSteppers : List (ℤ × StepperSnapshot) := []
  sensorValid : Dict Bool
  sensorAgeMs : Dict ℤ := []
  componentState : Dict (List Char) := []
  ctrl : Dict (List Char) := []
  txAgeS : Option Double := none

/-- One piece of the resistances; a dash is an unmeasured sample. -/
def readResistance (piece : List Char) : Option (Option Double) :=
  if piece = [] ∨ piece = "-".toList then some none else (float piece).map some

/-- `max(0.0, value)`. -/
def atLeastZero (value : Double) : Double :=
  match value with
  | ⟨false, .finite _⟩ => value
  | ⟨false, .infinite⟩ => value
  | _ => zeroFloat

/-- Put a motor's snapshot under its id. -/
def setStepper (steppers : List (ℤ × StepperSnapshot)) (motorId : ℤ) (snapshot : StepperSnapshot) :
    List (ℤ × StepperSnapshot) :=
  if steppers.any fun entry => entry.1 = motorId then
    steppers.map fun entry => if entry.1 = motorId then (motorId, snapshot) else entry
  else steppers ++ [(motorId, snapshot)]

/-- A `STEPPER<digits>=` token; another one is passed over. -/
def readIndexedStepper (s : Sections) (token : List Char) : Option Sections :=
  match cut '=' token with
  | none => some s
  | some (name, value) =>
    let suffix := name.drop "STEPPER".length
    if isDigits suffix = false then some s
    else do
      let motorId ← int suffix
      let snapshot ← parseStepperSegment value
      return { s with indexedSteppers := setStepper s.indexedSteppers motorId snapshot }

/-- Read one token after the heater duties; an unknown one is ignored. -/
def readToken (s : Sections) (token : List Char) : Option Sections :=
  let value := afterEquals token
  if startsWith "PHASE=" token then some { s with phase := value }
  else if startsWith "MODE=" token then some { s with mode := value }
  else if startsWith "STATUS=" token then some { s with status := value }
  else if startsWith "RESISTANCE=" token then
    if value = [] then some { s with sampleResistanceOhm := [] }
    else ((value.splitOn '|').mapM readResistance).map fun more =>
      { s with sampleResistanceOhm := s.sampleResistanceOhm ++ more }
  else if startsWith "SENSOR_VALID=" token then
    some { s with sensorValid :=
      (pairs value).foldl (fun dict entry => dict.set entry.1 (decide (entry.2 = "1".toList))) [] }
  else if startsWith "SENSOR_AGE_MS=" token then
    ((pairs value).foldlM (fun (dict : Dict ℤ) entry => (int entry.2).map (dict.set entry.1)) []).map fun ages =>
      { s with sensorAgeMs := ages }
  else if startsWith "COMPONENT_STATE=" token then
    some { s with componentState := (pairs value).foldl (fun dict entry => dict.set entry.1 entry.2) [] }
  else if startsWith "CTRL=" token then
    some { s with ctrl := (pairs value).foldl (fun dict entry => dict.set entry.1 entry.2) [] }
  else if startsWith "TX=" token then some { s with txAgeS := (float value).map atLeastZero }
  else if startsWith "STEPPER=" token then
    (parseStepperSegment value).map fun snapshot => { s with legacyStepper := some snapshot }
  else if startsWith "STEPPER" token then readIndexedStepper s token
  else some s

/-- Every sensor counts as valid until a block says otherwise. -/
def allValid (samples : ℕ) : Dict Bool :=
  [("AT".toList, true), ("AP".toList, true), ("UV".toList, true)] ++
    (List.range samples).map fun i => ('S' :: showNat i, true)

/-- The snapshots of a packet, by motor id; without any the segment of an old onboard. -/
def steppersOf (s : Sections) : List (ℤ × StepperSnapshot) :=
  if s.indexedSteppers ≠ [] then s.indexedSteppers.mergeSort fun one other => decide (one.1 ≤ other.1)
  else s.legacyStepper.toList.map fun snapshot => (0, snapshot)

/-- The stripped fields of a line. -/
def parts (line : List Char) : List (List Char) := ((strip line).splitOn ',').map strip

/-- One field of a line. -/
def part (fields : List (List Char)) (index : ℕ) : List Char := fields.getD index []

/-- `parse_telemetry_csv`. Everything between the eight fixed fields and the heater duties is a sample. -/
def parseTelemetryCsv (line : List Char) : Option TelemetryPacket := do
  let fields := parts line
  if fields.length < 11 then none
  else if part fields 0 ≠ "DATA".toList then none
  else
    let seq ← int (part fields 2)
    let rtcValid ← int (part fields 4)
    let ambientTempC ← float (part fields 5)
    let ambientPressureMbar ← float (part fields 6)
    let uv ← float (part fields 7)
    let heaterFieldIndex ← fields.findIdx? (startsWith "HEATER_DUTY=")
    let sampleTempsC ← ((fields.take heaterFieldIndex).drop 8).mapM float
    let heaterDuty ←
      (((afterEquals (part fields heaterFieldIndex)).splitOn '|').filter (· ≠ [])).mapM float
    let sections ← (fields.drop (heaterFieldIndex + 1)).foldlM readToken
      { sensorValid := allValid sampleTempsC.length }
    if sections.phase = [] ∨ sections.status = [] then none
    else
      return {
        sessionId := part fields 1
        seq := seq
        timestamp := part fields 3
        rtcValid := rtcValid
        ambientTempC := ambientTempC
        ambientPressureMbar := ambientPressureMbar
        uv := uv
        sampleTempsC := sampleTempsC
        heaterDuty := heaterDuty
        sampleResistanceOhm := sections.sampleResistanceOhm
        phase := sections.phase
        status := sections.status
        mode := sections.mode
        sensorValid := sections.sensorValid
        sensorAgeMs := sections.sensorAgeMs
        componentState := sections.componentState
        steppers := steppersOf sections
        stepper := (steppersOf sections).head?.map (·.2)
        ctrl := sections.ctrl
        txAgeS := sections.txAgeS }

/-- A heating cycle, as the onboard reports it. -/
structure HeatingCycleEvent where
  sessionId : List Char
  cycleId : ℤ
  startTs : List Char
  peakTempC : Double
  holdDurationS : Double
  cooldownRateCPerS : Double
  specimenIndex : ℤ
deriving DecidableEq

/-- `parse_heating_cycle_event`. -/
def parseHeatingCycleEvent (line : List Char) : Option HeatingCycleEvent := do
  let fields := parts line
  if fields.length < 9 ∨ part fields 0 ≠ "EVT".toList ∨ part fields 1 ≠ "CYCLE".toList then none
  else
    let cycleId ← int (part fields 3)
    let peakTempC ← float (part fields 5)
    let holdDurationS ← float (part fields 6)
    let cooldownRateCPerS ← float (part fields 7)
    let specimenIndex ← int (part fields 8)
    return ⟨part fields 2, cycleId, part fields 4, peakTempC, holdDurationS, cooldownRateCPerS, specimenIndex⟩

/-- One bend with its hold, as the onboard reports it. -/
structure PullEvent where
  sessionId : List Char
  pullId : ℤ
  motorId : ℤ
  startTs : List Char
  stepsMoved : ℤ
  holdS : Double
  samples : List ℤ
  microstep : Option ℤ
deriving DecidableEq

/-- The specimens of a pull; a dash is none. -/
def parseSamples (raw : List Char) : Option (List ℤ) :=
  if raw = [] ∨ raw = "-".toList then some []
  else ((raw.splitOn '|').filter (· ≠ [])).mapM int

/-- The divisor of a pull, if there is one. -/
def parseMicrostep (raw : List Char) : Option (Option ℤ) := if raw = [] then some none else (int raw).map some

/-- `parse_pull_event`. The divisor came later and may be missing. -/
def parsePullEvent (line : List Char) : Option PullEvent := do
  let fields := parts line
  if fields.length < 9 ∨ part fields 0 ≠ "EVT".toList ∨ part fields 1 ≠ "PULL".toList then none
  else
    let samples ← parseSamples (part fields 8)
    let pullId ← int (part fields 3)
    let motorId ← int (part fields 4)
    let stepsMoved ← int (part fields 6)
    let holdS ← float (part fields 7)
    let microstep ← parseMicrostep (part fields 9)
    return ⟨part fields 2, pullId, motorId, part fields 5, stepsMoved, holdS, samples, microstep⟩

/-- `build_ack`. -/
def buildAck (sessionId : List Char) (seq : ℤ) : List Char :=
  "ACK,".toList ++ sessionId ++ ',' :: showInt seq ++ ['\n']

/-- `ack_for_raw_line`: the ACK for a frame that could not be parsed, if its identity can be read. A digit
that is no decimal digit makes `int` raise, which ends the receiver without an answer. -/
def ackForRawLine (line : List Char) : Option (List Char) :=
  let fields := parts line
  if 3 ≤ fields.length ∧ part fields 0 = "DATA".toList ∧ part fields 1 ≠ [] ∧ isDigits (part fields 2) then
    (int (part fields 2)).map (buildAck (part fields 1))
  else if 3 ≤ fields.length ∧ part fields 0 = "EVT".toList ∧ part fields 2 ≠ [] then
    some (buildAck (part fields 2) 0)
  else none

end Coatheal.Ground
