import Coatheal.Library.Kept
import Coatheal.Sensors.Resistance
import Coatheal.Telemetry.Frame

/-!
# What a snapshot shows of the sensors

`sensor_manager.cpp`: four workers poll the barometer, the UV sensor, the RTD card
and the clicks, and the control loop takes snapshots of what they keep. Whatever
the polls give and however they interleave, a snapshot shows of a sensor the value
and the age of its last success, and marks it valid exactly when its last poll
succeeded and is recent.
-/

namespace Coatheal.Sensors

open Config Library Library.Text Library.PyText
open Ground (wholeFloat floatLe)
open Telemetry (SensorSnapshot)

/-- The switches of the two sensors that can be turned off. -/
structure SensorSwitches where
  dps310Enabled : Bool
  dps310AutoDiscover : Bool
  ads1115Enabled : Bool
  ads1115AutoDiscover : Bool

/-- The limits of the surroundings. -/
structure SensorRange where
  ambientTempMinC : Double
  ambientTempMaxC : Double
  ambientPressureMinMbar : Double
  ambientPressureMaxMbar : Double

/-- The state of a `SensorManager` of real sensors. -/
structure Sensing extends SensorManager where
  ambientTempCache : ScalarCache
  pressureCache : ScalarCache
  uvCache : ScalarCache
  dpsHealth : ComponentHealth
  adsHealth : ComponentHealth
  resolvedDpsAddress : ℤ
  resolvedAdsAddress : ℤ

/-- A pass of a worker that scans addresses: what each of them would answer, and when. -/
structure ScanPass (α : Type) where
  readAt : ℤ → Option α
  now : ℤ

/-- What happens to the sensors: passes of the four workers, completed pulls and checks on demand. -/
inductive Activity where
  | dps (pass : ScanPass (Double × Double))
  | ads (pass : ScanPass Double)
  | samples (event : Event)
  | checkRtd (pass : RtdPass)
  | checkClicks (pass : ClickPass)

/-- `kNoReading`. -/
def noReading : Double := ⟨false, .nan⟩

/-- A cache before the first success. -/
def ScalarCache.empty : ScalarCache := ⟨wholeFloat 0, false, false, 0⟩

/-- The constructor of `SensorManager`. -/
def Sensing.initial (config : OnboardConfig) (switches : SensorSwitches) (rtdAvailable clicksAvailable : Bool) : Sensing where
  toSensorManager := .initial config rtdAvailable clicksAvailable
  ambientTempCache := .empty
  pressureCache := .empty
  uvCache := .empty
  dpsHealth := ⟨if switches.dps310Enabled then .discovering else .disabled, "NOT_POLLED", -1⟩
  adsHealth := ⟨if switches.ads1115Enabled then .discovering else .disabled, "NOT_POLLED", -1⟩
  resolvedDpsAddress := -1
  resolvedAdsAddress := -1

/-- The addresses that are tried: the one that is known or configured, then the others of the part. -/
def candidates (resolved configured : ℤ) (autoDiscover : Bool) (others : List ℤ) : List ℤ :=
  let first := if 0 ≤ resolved then resolved else configured
  if autoDiscover then others.foldl (fun tried other => if other ∈ tried then tried else tried ++ [other]) [first]
  else [first]

/-- The first address that answers, and its answer. -/
def ScanPass.scan {α : Type} (pass : ScanPass α) (addresses : List ℤ) : Option (ℤ × α) :=
  addresses.findSome? fun address => (pass.readAt address).map fun answer => (address, answer)

/-- A cache after a poll: a failure only marks it. -/
def ScalarCache.keep (cache : ScalarCache) (answer : Option Double) (now : ℤ) : ScalarCache :=
  match answer with
  | some value => ⟨value, true, true, now⟩
  | none => { cache with valid := false }

/-- The health of a scanned sensor after a poll. -/
def healthAfter (config : OnboardConfig) (cache : ScalarCache) (answered : Bool) (now : ℤ) : ComponentHealth :=
  if answered then ⟨.ok, "NONE", 0⟩
  else ⟨failedState config now cache.hasValue cache.lastSuccess, "NO_RESPONSE", ageMs now cache.lastSuccess cache.hasValue⟩

section Worker

variable (config : OnboardConfig) (switches : SensorSwitches) (sensing : Sensing)

/-- What a pass of the `DpsLoop` reads. -/
def dpsAnswer (pass : ScanPass (Double × Double)) : Option (ℤ × Double × Double) :=
  pass.scan (candidates sensing.resolvedDpsAddress config.sensors.dps310I2cAddr switches.dps310AutoDiscover [0x76, 0x77])

/-- What a pass of the `AdsLoop` reads. -/
def adsAnswer (pass : ScanPass Double) : Option (ℤ × Double) :=
  pass.scan (candidates sensing.resolvedAdsAddress config.sensors.ads1115I2cAddr switches.ads1115AutoDiscover
    [0x48, 0x49, 0x4A, 0x4B])

/-- A pass of the `DpsLoop`. -/
def dpsPass (pass : ScanPass (Double × Double)) : Sensing :=
  let answer := dpsAnswer config switches sensing pass
  { sensing with
    ambientTempCache := sensing.ambientTempCache.keep (answer.map fun found => found.2.1) pass.now
    pressureCache := sensing.pressureCache.keep (answer.map fun found => found.2.2) pass.now
    dpsHealth := healthAfter config sensing.ambientTempCache answer.isSome pass.now
    resolvedDpsAddress := (answer.map Prod.fst).getD (-1) }

/-- A pass of the `AdsLoop`. -/
def adsPass (pass : ScanPass Double) : Sensing :=
  let answer := adsAnswer config switches sensing pass
  { sensing with
    uvCache := sensing.uvCache.keep (answer.map Prod.snd) pass.now
    adsHealth := healthAfter config sensing.uvCache answer.isSome pass.now
    resolvedAdsAddress := (answer.map Prod.fst).getD (-1) }

/-- What an activity does. The worker of a sensor that is turned off does not run; a check of the card probes it
in any case, and one of the clicks leaves the resistances alone. -/
def act : Activity → Sensing
  | .dps pass => if switches.dps310Enabled then dpsPass config switches sensing pass else sensing
  | .ads pass => if switches.ads1115Enabled then adsPass config switches sensing pass else sensing
  | .samples event => { sensing with toSensorManager := step config sensing.toSensorManager event }
  | .checkRtd pass => { sensing with rtdProbed := pass.probedAfter false }
  | .checkClicks pass =>
    { sensing with
      clicks := fun click => updateClickHealth config (sensing.clicks click) (pass.readOneShot click) pass.now }

end Worker

/-- The moment is recent. -/
def recent (config : OnboardConfig) (now moment : ℤ) : Bool :=
  decide (0 ≤ now - moment) && decide (now - moment < config.sensors.staleAfterMs)

/-- The value of a cache as it is shown. -/
def ScalarCache.shown (cache : ScalarCache) : Double := if cache.hasValue then cache.value else noReading

/-- The age of a cache. -/
def ScalarCache.age (cache : ScalarCache) (now : ℤ) : ℤ := ageMs now cache.lastSuccess cache.hasValue

/-- A cache is valid and fresh. -/
def ScalarCache.fresh (cache : ScalarCache) (config : OnboardConfig) (now : ℤ) : Bool :=
  cache.valid && (decide (0 ≤ cache.age now) && decide (cache.age now < config.sensors.staleAfterMs))

/-- The state of a scanned sensor as it is shown: what was kept is stale or degraded as soon as it is not fresh. -/
def shownState (config : OnboardConfig) (enabled : Bool) (health : ComponentHealth) (cache : ScalarCache) (now : ℤ) :
    ComponentState :=
  if enabled && cache.hasValue && !cache.fresh config now then
    if config.sensors.staleAfterMs ≤ cache.age now then .stale else .degraded
  else health.state

/-- The flags that a snapshot sets. -/
structure SensorFlags where
  i2cOk : Bool
  uvOk : Bool
  sampleTempOk : Bool
  resistanceOk : Bool
  tAmbientOk : Bool
  pAmbientOk : Bool

/-- `ReadSnapshot` of real sensors at a moment, with what the clock says; an INA3221 is healthy or not. -/
def Sensing.readSnapshot (config : OnboardConfig) (switches : SensorSwitches) (range : SensorRange) (rtcValid : Bool)
    (timestampUtc : List Char) (inaHealthy : Bool) (sensing : Sensing) (now : ℤ) : SensorSnapshot × SensorFlags :=
  let resistance := Sensors.readSnapshot config sensing.toSensorManager inaHealthy
  let ambientTempValid := sensing.ambientTempCache.fresh config now
  let ambientPressureValid := sensing.pressureCache.fresh config now
  let uvValid := sensing.uvCache.fresh config now
  let sampleTempValid := sensing.sampleCache.map fun sample => sample.fresh config now
  let ambientTempC := sensing.ambientTempCache.shown
  let ambientPressureMbar := sensing.pressureCache.shown
  ({ rtcValid := rtcValid
     timestampUtc := timestampUtc
     ambientTempC := ambientTempC
     ambientPressureMbar := ambientPressureMbar
     uv := sensing.uvCache.shown
     sampleTempsC := sensing.sampleCache.map ScalarCache.shown
     ambientTempValid := ambientTempValid
     ambientPressureValid := ambientPressureValid
     uvValid := uvValid
     sampleTempValid := sampleTempValid
     ambientTempAgeMs := Int64.ofInt (sensing.ambientTempCache.age now)
     ambientPressureAgeMs := Int64.ofInt (sensing.pressureCache.age now)
     uvAgeMs := Int64.ofInt (sensing.uvCache.age now)
     sampleTempAgeMs := sensing.sampleCache.map fun sample => Int64.ofInt (sample.age now)
     dps310 := shownState config switches.dps310Enabled sensing.dpsHealth sensing.ambientTempCache now
     ads1115 := shownState config switches.ads1115Enabled sensing.adsHealth sensing.uvCache now
     sequentRtd := sensing.rtdHealth.state
     sampleResistanceOhm := resistance.2 },
   { i2cOk := (!switches.dps310Enabled || ambientTempValid && ambientPressureValid) &&
       (!switches.ads1115Enabled || uvValid) && sensing.rtdBusOk
     uvOk := uvValid
     sampleTempOk := heatedChannelsValid config sampleTempValid
     resistanceOk := resistance.1
     tAmbientOk := ambientTempValid && floatLe range.ambientTempMinC ambientTempC &&
       floatLe ambientTempC range.ambientTempMaxC
     pAmbientOk := ambientPressureValid && floatLe range.ambientPressureMinMbar ambientPressureMbar &&
       floatLe ambientPressureMbar range.ambientPressureMaxMbar })

section Observed

variable (config : OnboardConfig) (switches : SensorSwitches)

/-- What a poll of the barometer gives. -/
def dpsAttempt (sensing : Sensing) : Activity → Option (Attempt (Double × Double) ℤ)
  | .dps pass =>
    if switches.dps310Enabled then some ⟨(dpsAnswer config switches sensing pass).map Prod.snd, pass.now⟩ else none
  | _ => none

/-- What a poll of the UV sensor gives. -/
def adsAttempt (sensing : Sensing) : Activity → Option (Attempt Double ℤ)
  | .ads pass =>
    if switches.ads1115Enabled then some ⟨(adsAnswer config switches sensing pass).map Prod.snd, pass.now⟩ else none
  | _ => none

/-- What a poll of the RTD card gives. -/
def cardAttempt (sensing : Sensing) : Activity → Option (Attempt RtdReading ℤ)
  | .samples (.rtd pass) => some ⟨(pass.outcome sensing.rtdProbed).toOption, pass.now⟩
  | _ => none

/-- The temperature of a valid channel. -/
def RtdReading.temperature (i : ℕ) (reading : RtdReading) : Option Double :=
  if h : i < 8 then if reading.channelValid ⟨i, h⟩ then some (reading.temperatureC ⟨i, h⟩) else none else none

variable (rtdAvailable clicksAvailable : Bool) (history : List Activity)

/-- The sensors after some activities. -/
def Sensing.after : Sensing :=
  Library.run (act config switches) (.initial config switches rtdAvailable clicksAvailable) history

/-- The polls of the barometer. -/
def dpsAttempts : List (Attempt (Double × Double) ℤ) :=
  observations (act config switches) (dpsAttempt config switches)
    (.initial config switches rtdAvailable clicksAvailable) history

/-- The polls of the UV sensor. -/
def adsAttempts : List (Attempt Double ℤ) :=
  observations (act config switches) (adsAttempt config switches)
    (.initial config switches rtdAvailable clicksAvailable) history

/-- The polls of the RTD card. -/
def cardAttempts : List (Attempt RtdReading ℤ) :=
  observations (act config switches) cardAttempt (.initial config switches rtdAvailable clicksAvailable) history

end Observed

/-- What is kept of some polls. -/
def cacheOf (attempts : List (Attempt Double ℤ)) : ScalarCache :=
  match lastSuccess attempts with
  | some (value, moment) => ⟨value, true, lastSucceeded attempts, moment⟩
  | none => .empty

/-- A cache after one more poll. -/
theorem keep_cacheOf (attempts : List (Attempt Double ℤ)) (answer : Option Double) (now : ℤ) :
    (cacheOf attempts).keep answer now = cacheOf (attempts ++ [⟨answer, now⟩]) := by
  cases answer with
  | some value =>
    rw [cacheOf, cacheOf, lastSuccess_concat, lastSucceeded_concat]
    rfl
  | none =>
    rw [cacheOf, cacheOf, lastSuccess_concat, lastSucceeded_concat, Option.map_none, Option.none_or]
    cases lastSuccess attempts with
    | none => rfl
    | some last => rfl

/-- The value of the last success is shown. -/
theorem shown_cacheOf (attempts : List (Attempt Double ℤ)) :
    (cacheOf attempts).shown = ((lastSuccess attempts).map Prod.fst).getD noReading := by
  rw [cacheOf]
  cases lastSuccess attempts with
  | none => rfl
  | some last => rfl

/-- The age of the last success. -/
theorem age_cacheOf (attempts : List (Attempt Double ℤ)) (now : ℤ) :
    (cacheOf attempts).age now = (lastSuccess attempts).elim (-1) fun last => now - last.2 := by
  rw [cacheOf]
  cases lastSuccess attempts with
  | none => rfl
  | some last => rfl

/-- A cache is fresh when the last poll gave a value that is current. -/
theorem fresh_cacheOf (config : OnboardConfig) (attempts : List (Attempt Double ℤ)) (now : ℤ) :
    (cacheOf attempts).fresh config now = (current (recent config now) attempts).isSome := by
  rw [isSome_current, ScalarCache.fresh, age_cacheOf, cacheOf]
  cases hlast : lastSuccess attempts with
  | some last => rfl
  | none =>
    cases hsucceeded : lastSucceeded attempts with
    | false => rfl
    | true =>
      obtain ⟨value, moment, -, hsome⟩ := lastSuccess_of_lastSucceeded hsucceeded
      rw [hlast] at hsome
      cases hsome

/-- The state that a poll leaves of a scanned sensor. -/
def polledState (config : OnboardConfig) (enabled : Bool) (attempts : List (Attempt Double ℤ)) : ComponentState :=
  if !enabled then .disabled
  else
    match attempts.getLast? with
    | none => .discovering
    | some attempt =>
      if attempt.answer.isSome then .ok
      else failedState config attempt.moment (lastSuccess attempts).isSome ((lastSuccess attempts).elim 0 Prod.snd)

/-- The state of a scanned sensor, as it is shown. -/
def sensorState (config : OnboardConfig) (enabled : Bool) (attempts : List (Attempt Double ℤ)) (now : ℤ) : ComponentState :=
  if !enabled then .disabled
  else if attempts = [] then .discovering
  else
    match lastSuccess attempts with
    | none => .failed
    | some last =>
      if (current (recent config now) attempts).isSome then .ok
      else if config.sensors.staleAfterMs ≤ now - last.2 then .stale
      else .degraded

/-- A cache remembers whether there was a success, and when the last one was. -/
theorem hasValue_cacheOf (attempts : List (Attempt Double ℤ)) :
    (cacheOf attempts).hasValue = (lastSuccess attempts).isSome ∧
      (cacheOf attempts).lastSuccess = (lastSuccess attempts).elim 0 Prod.snd := by
  rw [cacheOf]
  cases lastSuccess attempts with
  | none => exact ⟨rfl, rfl⟩
  | some last => exact ⟨rfl, rfl⟩

/-- The health after one more poll. -/
theorem state_healthAfter (config : OnboardConfig) (attempts : List (Attempt Double ℤ)) (answer : Option Double) (now : ℤ) :
    (healthAfter config (cacheOf attempts) answer.isSome now).state =
      polledState config true (attempts ++ [⟨answer, now⟩]) := by
  obtain ⟨hvalue, hlast⟩ := hasValue_cacheOf attempts
  rw [polledState, List.getLast?_concat, lastSuccess_concat, healthAfter, hvalue, hlast]
  cases answer with
  | some value => rfl
  | none => rfl

/-- What is shown of the state follows from the polls. -/
theorem shownState_cacheOf {config : OnboardConfig} {enabled : Bool} {health : ComponentHealth}
    {attempts : List (Attempt Double ℤ)} (hhealth : health.state = polledState config enabled attempts) (now : ℤ) :
    shownState config enabled health (cacheOf attempts) now = sensorState config enabled attempts now := by
  obtain ⟨hvalue, -⟩ := hasValue_cacheOf attempts
  rw [shownState, hhealth, hvalue, fresh_cacheOf, age_cacheOf, sensorState, polledState]
  cases enabled with
  | false => rfl
  | true =>
    rcases List.eq_nil_or_concat attempts with rfl | ⟨earlier, attempt, rfl⟩
    · rfl
    · have hne : earlier.concat attempt ≠ [] := by simp
      rw [if_neg hne, List.concat_eq_append, List.getLast?_concat]
      cases hlast : lastSuccess (earlier ++ [attempt]) with
      | none =>
        have hanswer : attempt.answer.isSome = false := by
          rw [lastSuccess_concat] at hlast
          cases hanswer : attempt.answer with
          | none => rfl
          | some value =>
            rw [hanswer] at hlast
            cases hlast
        simp [hanswer, failedState]
      | some last =>
        cases hcurrent : (current (recent config now) (earlier ++ [attempt])).isSome with
        | false =>
          simp only [Bool.not_true, Bool.not_false, Bool.and_true, Option.isSome_some, Option.elim_some, if_true,
            Bool.false_eq_true, if_false]
          rfl
        | true =>
          have hanswer : attempt.answer.isSome = true := by
            have hboth := isSome_current (recent config now) (earlier ++ [attempt])
            rw [hcurrent, lastSucceeded_concat] at hboth
            exact (Bool.and_eq_true_iff.mp hboth.symm).1
          simp [hanswer]

section Represented

variable {config : OnboardConfig} {switches : SensorSwitches}

/-- The barometer's caches and health are what its polls leave. -/
structure DpsRepresents (config : OnboardConfig) (switches : SensorSwitches) (sensing : Sensing)
    (attempts : List (Attempt (Double × Double) ℤ)) : Prop where
  temp : sensing.ambientTempCache = cacheOf (attempts.map (Attempt.part fun answer => some answer.1))
  pressure : sensing.pressureCache = cacheOf (attempts.map (Attempt.part fun answer => some answer.2))
  health : sensing.dpsHealth.state =
    polledState config switches.dps310Enabled (attempts.map (Attempt.part fun answer => some answer.1))

/-- The UV sensor's cache and health are what its polls leave. -/
structure AdsRepresents (config : OnboardConfig) (switches : SensorSwitches) (sensing : Sensing)
    (attempts : List (Attempt Double ℤ)) : Prop where
  uv : sensing.uvCache = cacheOf attempts
  health : sensing.adsHealth.state = polledState config switches.ads1115Enabled attempts

/-- The samples' caches and the health of the bus are what the polls of the card leave. -/
structure CardRepresents (config : OnboardConfig) (sensing : Sensing) (attempts : List (Attempt RtdReading ℤ)) : Prop where
  samples : sensing.sampleCache = (List.range config.hardware.sampleCount).map fun i =>
    cacheOf (attempts.map (Attempt.part (RtdReading.temperature i)))
  bus : sensing.rtdBusOk = lastSucceeded attempts

/-- Each activity leaves what the barometer's polls leave. -/
theorem DpsRepresents.act {sensing : Sensing} {attempts : List (Attempt (Double × Double) ℤ)}
    (h : DpsRepresents config switches sensing attempts) (activity : Activity) :
    DpsRepresents config switches (act config switches sensing activity)
      (attempts ++ (dpsAttempt config switches sensing activity).toList) := by
  have hsame : attempts ++ (none : Option (Attempt (Double × Double) ℤ)).toList = attempts := List.append_nil _
  cases activity with
  | dps pass =>
    by_cases henabled : switches.dps310Enabled = true
    · rw [Sensors.act, dpsAttempt, if_pos henabled, if_pos henabled, dpsPass]
      generalize dpsAnswer config switches sensing pass = answer
      refine ⟨?_, ?_, ?_⟩
      · rw [h.temp, keep_cacheOf, List.map_append]
        cases answer with
        | none => rfl
        | some found => rfl
      · rw [h.pressure, keep_cacheOf, List.map_append]
        cases answer with
        | none => rfl
        | some found => rfl
      · have hstate := state_healthAfter config (attempts.map (Attempt.part fun answer => some answer.1))
          (answer.map fun found => found.2.1) pass.now
        rw [henabled, List.map_append]
        rw [h.temp]
        cases answer with
        | none => exact hstate
        | some found => exact hstate
    · rw [Sensors.act, dpsAttempt, if_neg henabled, if_neg henabled, hsame]
      exact h
  | ads pass =>
    have hnone : dpsAttempt config switches sensing (.ads pass) = none := rfl
    rw [hnone, hsame, Sensors.act]
    split
    · exact ⟨h.temp, h.pressure, h.health⟩
    · exact h
  | samples _ | checkRtd _ | checkClicks _ =>
    change DpsRepresents config switches _ (attempts ++ [])
    rw [List.append_nil]
    exact ⟨h.temp, h.pressure, h.health⟩

/-- Each activity leaves what the UV sensor's polls leave. -/
theorem AdsRepresents.act {sensing : Sensing} {attempts : List (Attempt Double ℤ)}
    (h : AdsRepresents config switches sensing attempts) (activity : Activity) :
    AdsRepresents config switches (act config switches sensing activity)
      (attempts ++ (adsAttempt config switches sensing activity).toList) := by
  have hsame : attempts ++ (none : Option (Attempt Double ℤ)).toList = attempts := List.append_nil _
  cases activity with
  | ads pass =>
    by_cases henabled : switches.ads1115Enabled = true
    · rw [Sensors.act, adsAttempt, if_pos henabled, if_pos henabled, adsPass]
      generalize adsAnswer config switches sensing pass = answer
      refine ⟨?_, ?_⟩
      · rw [h.uv, keep_cacheOf]
        rfl
      · have hstate := state_healthAfter config attempts (answer.map Prod.snd) pass.now
        rw [Option.isSome_map] at hstate
        rw [henabled, h.uv]
        exact hstate
    · rw [Sensors.act, adsAttempt, if_neg henabled, if_neg henabled, hsame]
      exact h
  | dps pass =>
    have hnone : adsAttempt config switches sensing (.dps pass) = none := rfl
    rw [hnone, hsame, Sensors.act]
    split
    · exact ⟨h.uv, h.health⟩
    · exact h
  | samples _ | checkRtd _ | checkClicks _ =>
    change AdsRepresents config switches _ (attempts ++ [])
    rw [List.append_nil]
    exact ⟨h.uv, h.health⟩

/-- A pass in which the card answers. -/
theorem sequentRtdPass_ok (config : OnboardConfig) {manager : SensorManager} {pass : RtdPass} {reading : RtdReading}
    (h : pass.outcome manager.rtdProbed = .ok reading) :
    (sequentRtdPass config manager pass).sampleCache = cacheReading manager.sampleCache reading pass.now ∧
      (sequentRtdPass config manager pass).rtdBusOk = true := by
  rw [sequentRtdPass, h]
  exact ⟨rfl, rfl⟩

/-- A pass in which the card does not answer. -/
theorem sequentRtdPass_error (config : OnboardConfig) {manager : SensorManager} {pass : RtdPass} {error : String}
    (h : pass.outcome manager.rtdProbed = .error error) :
    (sequentRtdPass config manager pass).sampleCache = manager.sampleCache.map (fun sample => { sample with valid := false }) ∧
      (sequentRtdPass config manager pass).rtdBusOk = false := by
  rw [sequentRtdPass, h]
  exact ⟨rfl, rfl⟩

/-- A sample after a poll of the card. -/
theorem keep_temperature (attempts : List (Attempt RtdReading ℤ)) (answer : Option RtdReading) (now : ℤ) (i : ℕ) :
    (cacheOf (attempts.map (Attempt.part (RtdReading.temperature i)))).keep (answer.bind (RtdReading.temperature i)) now =
      cacheOf ((attempts ++ [Attempt.mk answer now]).map (Attempt.part (RtdReading.temperature i))) := by
  rw [keep_cacheOf, List.map_append]
  rfl

/-- A sample beyond the channels of the card was never read. -/
theorem cacheOf_beyond {i : ℕ} (hi : ¬ i < 8) (attempts : List (Attempt RtdReading ℤ)) :
    cacheOf (attempts.map (Attempt.part (RtdReading.temperature i))) = .empty := by
  induction attempts using List.reverseRecOn with
  | nil => rfl
  | append_singleton attempts attempt ih =>
    rw [← keep_temperature, ih]
    have hnone : attempt.answer.bind (RtdReading.temperature i) = none := by
      cases attempt.answer with
      | none => rfl
      | some reading => exact dif_neg hi
    rw [hnone]
    rfl

/-- A reading of the card is kept sample by sample. -/
theorem cacheReading_eq (count : ℕ) (attempts : List (Attempt RtdReading ℤ)) (reading : RtdReading) (now : ℤ) :
    cacheReading ((List.range count).map fun i => cacheOf (attempts.map (Attempt.part (RtdReading.temperature i)))) reading now =
      (List.range count).map fun i =>
        cacheOf ((attempts ++ [Attempt.mk (some reading) now]).map (Attempt.part (RtdReading.temperature i))) := by
  refine List.ext_getElem (by simp [cacheReading]) fun i hfirst hsecond => ?_
  simp only [cacheReading, List.getElem_mapIdx, List.getElem_map, List.getElem_range]
  by_cases hi : i < 8
  · rw [dif_pos hi, ← keep_temperature, Option.bind_some, RtdReading.temperature, dif_pos hi]
    cases reading.channelValid ⟨i, hi⟩ with
    | true => rfl
    | false => rfl
  · rw [dif_neg hi, cacheOf_beyond hi, cacheOf_beyond hi]

/-- Each activity leaves what the polls of the card leave. -/
theorem CardRepresents.act {sensing : Sensing} {attempts : List (Attempt RtdReading ℤ)}
    (h : CardRepresents config sensing attempts) (activity : Activity) :
    CardRepresents config (act config switches sensing activity)
      (attempts ++ (cardAttempt sensing activity).toList) := by
  have hsame : attempts ++ (none : Option (Attempt RtdReading ℤ)).toList = attempts := List.append_nil _
  cases activity with
  | samples event =>
    cases event with
    | pullCompleted motorId =>
      have hnone : cardAttempt sensing (.samples (.pullCompleted motorId)) = none := rfl
      have hkeep : (notePullCompleted config sensing.toSensorManager motorId).sampleCache = sensing.sampleCache ∧
          (notePullCompleted config sensing.toSensorManager motorId).rtdBusOk = sensing.rtdBusOk := by
        rw [notePullCompleted]
        repeat' split
        all_goals exact ⟨rfl, rfl⟩
      rw [hnone, hsame]
      exact ⟨hkeep.1.trans h.samples, hkeep.2.trans h.bus⟩
    | clicks pass =>
      have hnone : cardAttempt sensing (.samples (.clicks pass)) = none := rfl
      rw [hnone, hsame]
      exact ⟨h.samples, h.bus⟩
    | rtd pass =>
      have hpoll : cardAttempt sensing (.samples (.rtd pass)) =
          some ⟨(pass.outcome sensing.rtdProbed).toOption, pass.now⟩ := rfl
      rw [hpoll]
      cases houtcome : pass.outcome sensing.rtdProbed with
      | ok reading =>
        obtain ⟨hcache, hbus⟩ := sequentRtdPass_ok config houtcome
        rw [h.samples] at hcache
        exact ⟨hcache.trans (cacheReading_eq _ attempts reading pass.now),
          hbus.trans (lastSucceeded_concat attempts ⟨some reading, pass.now⟩).symm⟩
      | error error =>
        obtain ⟨hcache, hbus⟩ := sequentRtdPass_error config houtcome
        rw [h.samples, List.map_map] at hcache
        refine ⟨hcache.trans (List.map_congr_left fun i _ => ?_),
          hbus.trans (lastSucceeded_concat attempts ⟨none, pass.now⟩).symm⟩
        exact keep_temperature attempts none pass.now i
  | dps pass | ads pass =>
    change CardRepresents config (Sensors.act _ _ _ _) (attempts ++ [])
    rw [List.append_nil, Sensors.act]
    split
    · exact ⟨h.samples, h.bus⟩
    · exact h
  | checkRtd _ | checkClicks _ =>
    change CardRepresents config _ (attempts ++ [])
    rw [List.append_nil]
    exact ⟨h.samples, h.bus⟩

end Represented

section Shown

variable {config : OnboardConfig} {switches : SensorSwitches}

/-- The barometer's caches after a run. -/
theorem dpsRepresents_after (rtdAvailable clicksAvailable : Bool) (history : List Activity) :
    DpsRepresents config switches (Sensing.after config switches rtdAvailable clicksAvailable history)
      (dpsAttempts config switches rtdAvailable clicksAvailable history) := by
  refine represents_run (fun _ _ activity h => h.act activity) ⟨rfl, rfl, ?_⟩ history
  cases henabled : switches.dps310Enabled <;> simp [Sensing.initial, polledState, henabled]

/-- The UV sensor's cache after a run. -/
theorem adsRepresents_after (rtdAvailable clicksAvailable : Bool) (history : List Activity) :
    AdsRepresents config switches (Sensing.after config switches rtdAvailable clicksAvailable history)
      (adsAttempts config switches rtdAvailable clicksAvailable history) := by
  refine represents_run (fun _ _ activity h => h.act activity) ⟨rfl, ?_⟩ history
  cases henabled : switches.ads1115Enabled <;> simp [Sensing.initial, polledState, henabled]

/-- The samples' caches after a run. -/
theorem cardRepresents_after (rtdAvailable clicksAvailable : Bool) (history : List Activity) :
    CardRepresents config (Sensing.after config switches rtdAvailable clicksAvailable history)
      (cardAttempts config switches rtdAvailable clicksAvailable history) := by
  refine represents_run (fun _ _ activity h => h.act activity) ⟨?_, rfl⟩ history
  have hempty : (fun i => cacheOf (([] : List (Attempt RtdReading ℤ)).map (Attempt.part (RtdReading.temperature i)))) =
      fun _ => ScalarCache.empty := rfl
  rw [hempty, List.map_const', List.length_range]
  rfl

/-- A sensor is shown as its polls leave it: the value and the age of the last success, valid while it is current. -/
structure Shows (config : OnboardConfig) (now : ℤ) (attempts : List (Attempt Double ℤ)) (value : Double) (valid : Bool)
    (age : Int64) : Prop where
  value : value = ((lastSuccess attempts).map Prod.fst).getD noReading
  valid : valid = (current (recent config now) attempts).isSome
  age : age = Int64.ofInt ((lastSuccess attempts).elim (-1) fun last => now - last.2)

/-- What is shown of a cache. -/
theorem shows_cacheOf (config : OnboardConfig) (now : ℤ) (attempts : List (Attempt Double ℤ)) :
    Shows config now attempts (cacheOf attempts).shown ((cacheOf attempts).fresh config now)
      (Int64.ofInt ((cacheOf attempts).age now)) :=
  ⟨shown_cacheOf attempts, fresh_cacheOf config attempts now, congrArg Int64.ofInt (age_cacheOf attempts now)⟩

/-- A snapshot and its flags show the polls of the sensors. -/
structure Faithful (config : OnboardConfig) (switches : SensorSwitches) (range : SensorRange)
    (dps : List (Attempt (Double × Double) ℤ)) (ads : List (Attempt Double ℤ)) (card : List (Attempt RtdReading ℤ)) (now : ℤ)
    (snapshot : SensorSnapshot) (flags : SensorFlags) : Prop where
  temp : Shows config now (dps.map (Attempt.part fun answer => some answer.1)) snapshot.ambientTempC
    snapshot.ambientTempValid snapshot.ambientTempAgeMs
  pressure : Shows config now (dps.map (Attempt.part fun answer => some answer.2)) snapshot.ambientPressureMbar
    snapshot.ambientPressureValid snapshot.ambientPressureAgeMs
  uv : Shows config now ads snapshot.uv snapshot.uvValid snapshot.uvAgeMs
  samples : snapshot.sampleTempsC.length = config.hardware.sampleCount ∧
    snapshot.sampleTempValid.length = config.hardware.sampleCount ∧
    snapshot.sampleTempAgeMs.length = config.hardware.sampleCount
  sample : ∀ i < config.hardware.sampleCount,
    Shows config now (card.map (Attempt.part (RtdReading.temperature i))) (snapshot.sampleTempsC.getD i noReading)
      (snapshot.sampleTempValid.getD i false) (snapshot.sampleTempAgeMs.getD i (-1))
  dpsState : snapshot.dps310 =
    sensorState config switches.dps310Enabled (dps.map (Attempt.part fun answer => some answer.1)) now
  adsState : snapshot.ads1115 = sensorState config switches.ads1115Enabled ads now
  i2c : flags.i2cOk = true ↔
    (switches.dps310Enabled = true → (current (recent config now) dps).isSome = true) ∧
      (switches.ads1115Enabled = true → (current (recent config now) ads).isSome = true) ∧ lastSucceeded card = true
  uvFlag : flags.uvOk = (current (recent config now) ads).isSome
  sampleTemp : flags.sampleTempOk = true ↔ config.heaters.temperatureChannels ≠ [] ∧
    ∀ channel ∈ config.heaters.temperatureChannels, channel < config.hardware.sampleCount ∧
      (current (recent config now) (card.map (Attempt.part (RtdReading.temperature channel)))).isSome = true
  tAmbient : flags.tAmbientOk = (current (recent config now) dps).any fun answer =>
    floatLe range.ambientTempMinC answer.1 && floatLe answer.1 range.ambientTempMaxC
  pAmbient : flags.pAmbientOk = (current (recent config now) dps).any fun answer =>
    floatLe range.ambientPressureMinMbar answer.2 && floatLe answer.2 range.ambientPressureMaxMbar

/-- A test of a fresh cache is one of the current value. -/
theorem fresh_and_shown (config : OnboardConfig) (now : ℤ) (attempts : List (Attempt Double ℤ)) (test : Double → Bool) :
    ((cacheOf attempts).fresh config now && test (cacheOf attempts).shown) =
      (current (recent config now) attempts).any test := by
  rw [fresh_cacheOf, shown_cacheOf]
  cases hcurrent : current (recent config now) attempts with
  | none => rfl
  | some value =>
    obtain ⟨moment, hlast, -⟩ := lastSuccess_of_current hcurrent
    rw [hlast]
    rfl

/-- The heated channels are fresh when they are samples and each has a current temperature. -/
theorem heatedChannelsValid_fresh (config : OnboardConfig) (now : ℤ) (card : List (Attempt RtdReading ℤ)) :
    heatedChannelsValid config (((List.range config.hardware.sampleCount).map fun i =>
        cacheOf (card.map (Attempt.part (RtdReading.temperature i)))).map fun sample => sample.fresh config now) = true ↔
      config.heaters.temperatureChannels ≠ [] ∧
        ∀ channel ∈ config.heaters.temperatureChannels, channel < config.hardware.sampleCount ∧
          (current (recent config now) (card.map (Attempt.part (RtdReading.temperature channel)))).isSome = true := by
  rw [heatedChannelsValid, Bool.and_eq_true, decide_eq_true_eq, List.all_eq_true]
  refine and_congr_right fun _ => forall₂_congr fun channel _ => ?_
  rw [List.map_map, List.getD_eq_getElem?_getD, List.getElem?_map]
  by_cases hin : channel < config.hardware.sampleCount
  · rw [List.getElem?_range hin, Option.map_some, Option.getD_some, Function.comp_apply, fresh_cacheOf]
    exact (and_iff_right hin).symm
  · rw [List.getElem?_eq_none (by rw [List.length_range]; exact not_lt.mp hin)]
    exact iff_of_false Bool.false_ne_true fun hboth => hin hboth.1

/-- A snapshot shows what is kept of the polls. -/
theorem faithful_readSnapshot {sensing : Sensing} {dps : List (Attempt (Double × Double) ℤ)}
    {ads : List (Attempt Double ℤ)} {card : List (Attempt RtdReading ℤ)} (hdps : DpsRepresents config switches sensing dps)
    (hads : AdsRepresents config switches sensing ads) (hcard : CardRepresents config sensing card) (range : SensorRange)
    (rtcValid : Bool) (timestampUtc : List Char) (inaHealthy : Bool) (now : ℤ) :
    Faithful config switches range dps ads card now
      (sensing.readSnapshot config switches range rtcValid timestampUtc inaHealthy now).1
      (sensing.readSnapshot config switches range rtcValid timestampUtc inaHealthy now).2 := by
  rw [Sensing.readSnapshot, hdps.temp, hdps.pressure, hads.uv, hcard.samples, hcard.bus]
  have hfresh (attempts : List (Attempt Double ℤ)) := fresh_cacheOf config attempts now
  constructor
  case temp => exact shows_cacheOf config now _
  case pressure => exact shows_cacheOf config now _
  case uv => exact shows_cacheOf config now _
  case samples => simp
  case sample =>
    intro i hi
    simpa [hi] using shows_cacheOf config now (card.map (Attempt.part (RtdReading.temperature i)))
  case dpsState => exact shownState_cacheOf hdps.health now
  case adsState => exact shownState_cacheOf hads.health now
  case i2c =>
    dsimp only
    rw [hfresh, hfresh, hfresh, current_part, current_part, Option.isSome_map, Option.isSome_map]
    cases switches.dps310Enabled <;> cases switches.ads1115Enabled <;> simp [and_assoc]
  case uvFlag => exact hfresh ads
  case sampleTemp => exact heatedChannelsValid_fresh config now card
  case tAmbient =>
    have htest := fresh_and_shown config now (dps.map (Attempt.part fun answer => some answer.1))
      fun value => floatLe range.ambientTempMinC value && floatLe value range.ambientTempMaxC
    rw [current_part, Option.any_map, ← Bool.and_assoc] at htest
    exact htest
  case pAmbient =>
    have htest := fresh_and_shown config now (dps.map (Attempt.part fun answer => some answer.2))
      fun value => floatLe range.ambientPressureMinMbar value && floatLe value range.ambientPressureMaxMbar
    rw [current_part, Option.any_map, ← Bool.and_assoc] at htest
    exact htest

end Shown

end Coatheal.Sensors
