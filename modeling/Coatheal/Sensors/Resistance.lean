import Coatheal.Config.Ini
import Coatheal.Ground.OnboardState

/-!
# Who writes the sample resistances

`sensor_manager.cpp`: completed pulls, the poll of the RTD card and the poll of the
two clicks share one vector of resistances, and each writes it only as the
configured source. A failed poll leaves the last good value in the vector, so that
an entry is the last reading that its source had for it.
-/

namespace Coatheal.Sensors

open Config Library Library.PyText
open Ground (floatMul wholeFloat)

/-- There are two clicks. -/
local instance neZeroClicks : NeZero 2 := ⟨two_ne_zero⟩

/-- `ComponentState`. -/
inductive ComponentState where
  | disabled | discovering | ok | degraded | stale | failed
deriving DecidableEq

/-- `ComponentHealth`. -/
structure ComponentHealth where
  state : ComponentState
  error : String
  lastSuccessAgeMs : ℤ

/-- `RtdChannelFault`. -/
inductive RtdChannelFault where
  | none | open | short | mismatch
deriving DecidableEq

/-- `SequentRtdAdapter::Reading`. -/
structure RtdReading where
  temperatureC : Fin 8 → Double
  resistanceOhm : Fin 8 → Double
  channelValid : Fin 8 → Bool
  channelFault : Fin 8 → RtdChannelFault

/-- `Max31865Adapter::Reading`. -/
structure ClickReading where
  resistanceOhm : Double
  valid : Bool
  outOfRange : Bool
  faultBits : BitVec 8

/-- `ScalarCache`. -/
structure ScalarCache where
  value : Double
  hasValue : Bool
  valid : Bool
  lastSuccess : ℤ

/-- What is kept of a click. -/
structure ClickRecord where
  health : ComponentHealth
  lastOhm : Double
  lastFault : BitVec 8
  lastValid : Bool
  hasReading : Bool
  hasSuccess : Bool
  lastSuccess : ℤ

/-- The state of the `SensorManager` that the polls write and the resistances of a snapshot need. -/
structure SensorManager where
  sampleResistanceOhm : List Double
  sampleCache : List ScalarCache
  rtdProbed : Bool
  rtdBusOk : Bool
  rtdHealth : ComponentHealth
  rtdLastReading : Option RtdReading
  sampleTempOk : Bool
  clicksBusOk : Bool
  clicks : Fin 2 → ClickRecord

/-- A pass of the `SequentRtdLoop`: how a probe and a reading of the card end, and when. -/
structure RtdPass where
  probe : Except String Unit
  readAll : Except String RtdReading
  now : ℤ

/-- A pass of the `Max31865Loop`: how the conversion of each click ends, and when. -/
structure ClickPass where
  readOneShot : Fin 2 → Except String ClickReading
  now : ℤ

/-- What happens to the resistances. -/
inductive Event where
  | pullCompleted (motorId : ℤ)
  | rtd (pass : RtdPass)
  | clicks (pass : ClickPass)

/-- `kInitialResistanceOhm`. -/
def initialResistanceOhm : Double := wholeFloat 100

/-- `1.0 - kResistanceDecayPerPull`, where the decay of a twentieth is a double too. -/
def keptPerPull : Double :=
  match doubleOf (1 / 20) with
  | .finite decay => ⟨false, doubleOf (1 - decay)⟩
  | other => ⟨false, other⟩

/-- The configured source. -/
def Source (config : OnboardConfig) (name : String) : Prop := config.sensors.resistanceSource = name.toList

instance (config : OnboardConfig) (name : String) : Decidable (Source config name) :=
  inferInstanceAs (Decidable (_ = _))

/-- The constructor of `SensorManager`, whose buses are available or not. -/
def SensorManager.initial (config : OnboardConfig) (rtdAvailable clicksAvailable : Bool) : SensorManager where
  sampleResistanceOhm :=
    List.replicate config.hardware.sampleCount (if Source config "simulated" then initialResistanceOhm else wholeFloat 0)
  sampleCache := List.replicate config.hardware.sampleCount ⟨wholeFloat 0, false, false, 0⟩
  rtdProbed := false
  rtdBusOk := false
  rtdHealth := if rtdAvailable then ⟨.discovering, "NOT_POLLED", -1⟩ else ⟨.disabled, "I2C_UNAVAILABLE", -1⟩
  rtdLastReading := none
  sampleTempOk := false
  clicksBusOk := false
  clicks := fun _ =>
    { health := if clicksAvailable then ⟨.discovering, "NOT_POLLED", -1⟩ else ⟨.disabled, "SPI_UNAVAILABLE", -1⟩
      lastOhm := wholeFloat 0
      lastFault := 0
      lastValid := false
      hasReading := false
      hasSuccess := false
      lastSuccess := 0 }

/-- `AgeMs`. -/
def ageMs (now value : ℤ) (hasValue : Bool) : ℤ := if hasValue then now - value else -1

/-- `FailedState`. -/
def failedState (config : OnboardConfig) (now : ℤ) (hasSuccess : Bool) (lastSuccess : ℤ) : ComponentState :=
  if !hasSuccess then .failed
  else if config.sensors.staleAfterMs ≤ ageMs now lastSuccess true then .stale else .degraded

/-- An error, or that there was no response. -/
def orNoResponse (error : String) : String := if error = "" then "NO_RESPONSE" else error

/-- `RtdStateForValidCount`. -/
def rtdStateForValidCount (validCount channelCount : ℕ) : ComponentState × String :=
  if validCount = 0 then (.failed, "NO_VALID_CHANNELS")
  else if validCount < channelCount then (.degraded, "PARTIAL_CHANNELS")
  else (.ok, "NONE")

/-- `HeatedChannelsValid`. -/
def heatedChannelsValid (config : OnboardConfig) (channelValid : List Bool) : Bool :=
  decide (config.heaters.temperatureChannels ≠ []) &&
    config.heaters.temperatureChannels.all fun channel => channelValid.getD channel false

/-- `NotePullCompleted`. -/
def notePullCompleted (config : OnboardConfig) (manager : SensorManager) (motorId : ℤ) : SensorManager :=
  if ¬ Source config "simulated" then manager
  else if motorId ≠ 0 ∧ motorId ≠ 1 then manager
  else
    let start := if motorId = 0 then 0 else 4
    let stop := if motorId = 0 then 4 else manager.sampleResistanceOhm.length
    { manager with
      sampleResistanceOhm := manager.sampleResistanceOhm.mapIdx fun i value =>
        if start ≤ i ∧ i < stop then floatMul value keptPerPull else value }

/-- The card is probed if it has to be, and read if it answers. -/
def RtdPass.outcome (pass : RtdPass) (probed : Bool) : Except String RtdReading :=
  if probed then pass.readAll
  else
    match pass.probe with
    | .error error => .error error
    | .ok () => pass.readAll

/-- The card is known after a pass: a reading that fails asks for another probe. -/
def RtdPass.probedAfter (pass : RtdPass) (probed : Bool) : Bool :=
  match pass.outcome probed with
  | .ok _ => true
  | .error _ => false

/-- A channel of a reading is valid. -/
def RtdReading.validAt (reading : RtdReading) (i : ℕ) : Bool :=
  if h : i < 8 then reading.channelValid ⟨i, h⟩ else false

/-- The last success among some samples. -/
def newestSuccess (cache : List ScalarCache) : Option ℤ :=
  ((cache.filter fun sample => sample.hasValue).map ScalarCache.lastSuccess).max?

/-- The samples after a reading of the card: a valid channel is taken, an invalid one only marked. -/
def cacheReading (cache : List ScalarCache) (reading : RtdReading) (now : ℤ) : List ScalarCache :=
  cache.mapIdx fun i sample =>
    if h : i < 8 then
      if reading.channelValid ⟨i, h⟩ then ⟨reading.temperatureC ⟨i, h⟩, true, true, now⟩ else { sample with valid := false }
    else sample

/-- The resistances after a reading of the card, if it owns them. -/
def storeReading (ownsResistance : Bool) (resistances : List Double) (reading : RtdReading) : List Double :=
  resistances.mapIdx fun i value =>
    if h : i < 8 then
      if reading.channelValid ⟨i, h⟩ && ownsResistance then reading.resistanceOhm ⟨i, h⟩ else value
    else value

/-- A pass of the `SequentRtdLoop`. One moment stands for the readings of the clock in a pass. -/
def sequentRtdPass (config : OnboardConfig) (manager : SensorManager) (pass : RtdPass) : SensorManager :=
  let fresh (sample : ScalarCache) : Bool :=
    let age := ageMs pass.now sample.lastSuccess sample.hasValue
    decide (0 ≤ age ∧ age < config.sensors.staleAfterMs)
  match pass.outcome manager.rtdProbed with
  | .ok reading =>
    let cache := cacheReading manager.sampleCache reading pass.now
    let channelValid := cache.mapIdx fun i sample => reading.validAt i && fresh sample
    let count := ((List.range (min cache.length 8)).filter reading.validAt).length
    let (state, error) := rtdStateForValidCount count cache.length
    { manager with
      sampleResistanceOhm :=
        storeReading (decide (Source config "sequent_rtd")) manager.sampleResistanceOhm reading
      sampleCache := cache
      rtdProbed := pass.probedAfter manager.rtdProbed
      rtdBusOk := true
      rtdHealth := ⟨state, error, 0⟩
      rtdLastReading := some reading
      sampleTempOk := heatedChannelsValid config channelValid }
  | .error error =>
    let cache := manager.sampleCache.map fun sample => { sample with valid := false }
    let newest := newestSuccess cache
    { manager with
      sampleCache := cache
      rtdProbed := pass.probedAfter manager.rtdProbed
      rtdBusOk := false
      rtdHealth := ⟨failedState config pass.now newest.isSome (newest.getD 0), orNoResponse error,
        ageMs pass.now (newest.getD 0) newest.isSome⟩
      sampleTempOk := heatedChannelsValid config (cache.map fun _ => false) }

/-- `UpdateClickHealth`. -/
def updateClickHealth (config : OnboardConfig) (click : ClickRecord) (result : Except String ClickReading) (now : ℤ) :
    ClickRecord :=
  match result with
  | .ok reading =>
    { health := if reading.outOfRange then ⟨.degraded, "OUT_OF_RANGE", 0⟩ else ⟨.ok, "NONE", 0⟩
      lastOhm := reading.resistanceOhm
      lastFault := reading.faultBits
      lastValid := !reading.outOfRange
      hasReading := true
      hasSuccess := true
      lastSuccess := now }
  | .error error =>
    { click with
      health := ⟨failedState config now click.hasSuccess click.lastSuccess, orNoResponse error,
        ageMs now click.lastSuccess click.hasSuccess⟩ }

/-- The resistances after the conversion of a click, if the clicks own them: what is out of range is written as zero. -/
def storeClick (config : OnboardConfig) (pass : ClickPass) (resistances : List Double) (click : Fin 2) : List Double :=
  match pass.readOneShot click, config.sensors.max31865SampleIndices[click.val]? with
  | .ok reading, some index =>
    if Source config "max31865_click" then
      resistances.set index (if reading.valid then reading.resistanceOhm else wholeFloat 0)
    else resistances
  | _, _ => resistances

/-- A pass of the `Max31865Loop`. -/
def max31865Pass (config : OnboardConfig) (manager : SensorManager) (pass : ClickPass) : SensorManager :=
  { manager with
    sampleResistanceOhm := [0, 1].foldl (storeClick config pass) manager.sampleResistanceOhm
    clicksBusOk := (pass.readOneShot 0).isOk && (pass.readOneShot 1).isOk
    clicks := fun click => updateClickHealth config (manager.clicks click) (pass.readOneShot click) pass.now }

/-- What an event does. -/
def step (config : OnboardConfig) (manager : SensorManager) : Event → SensorManager
  | .pullCompleted motorId => notePullCompleted config manager motorId
  | .rtd pass => sequentRtdPass config manager pass
  | .clicks pass => max31865Pass config manager pass

/-- The manager after some events. -/
def run (config : OnboardConfig) (rtdAvailable clicksAvailable : Bool) (history : List Event) : SensorManager :=
  history.foldl (step config) (.initial config rtdAvailable clicksAvailable)

/-- The `resistance_ok` and the resistances of `ReadSnapshot` of real sensors, where an INA3221 is healthy or not. -/
def readSnapshot (config : OnboardConfig) (manager : SensorManager) (inaHealthy : Bool) : Bool × List Double :=
  let blank := List.replicate config.hardware.sampleCount (wholeFloat 0)
  if Source config "disabled" then (true, blank)
  else if Source config "simulated" then (true, manager.sampleResistanceOhm)
  else if Source config "max31865_click" then (manager.clicksBusOk, manager.sampleResistanceOhm)
  else if Source config "sequent_rtd" then (manager.rtdBusOk, manager.sampleResistanceOhm)
  else if inaHealthy then (true, manager.sampleResistanceOhm)
  else (false, blank)

/-- What a pass reads of a channel, if the card answers and the channel is valid. -/
def RtdPass.reading (pass : RtdPass) (probed : Bool) (i : ℕ) : Option Double :=
  match pass.outcome probed with
  | .error _ => none
  | .ok reading =>
    if h : i < 8 then if reading.channelValid ⟨i, h⟩ then some (reading.resistanceOhm ⟨i, h⟩) else none else none

/-- A pull of the motor of an entry. -/
def decays (i : ℕ) : Event → Bool
  | .pullCompleted motorId => if i < 4 then motorId = 0 else motorId = 1
  | .rtd _ => false
  | .clicks _ => false

section Law

variable (config : OnboardConfig) (rtdAvailable clicksAvailable : Bool) (history : List Event) (i : ℕ) (value : Double)

/-- The value is of the simulated source: the initial one, after the pulls of the motor. -/
def Simulated : Prop :=
  Source config "simulated" ∧
    value = (fun old => floatMul old keptPerPull)^[history.countP (decays i)] initialResistanceOhm

/-- The value is what the most recent poll of its source gave, and that poll was a valid reading. -/
def FromMostRecentPoll : Prop :=
  Simulated config history i value ∨
  (Source config "sequent_rtd" ∧ ∃ front pass back, history = front ++ .rtd pass :: back ∧
    pass.reading (run config rtdAvailable clicksAvailable front).rtdProbed i = some value ∧
    ∀ later, Event.rtd later ∉ back) ∨
  (Source config "max31865_click" ∧ ∃ click : Fin 2, config.sensors.max31865SampleIndices[click.val]? = some i ∧
    ∃ front pass back, history = front ++ .clicks pass :: back ∧
      (∃ reading, pass.readOneShot click = .ok reading ∧ reading.valid = true ∧ reading.resistanceOhm = value) ∧
      ∀ later, Event.clicks later ∉ back)

/-- The value is the last good one of its source: of the card the last valid reading of the channel, of a click what its last
answer was, and that answer was valid. -/
def LastGood : Prop :=
  Simulated config history i value ∨
  (Source config "sequent_rtd" ∧ ∃ front pass back, history = front ++ .rtd pass :: back ∧
    pass.reading (run config rtdAvailable clicksAvailable front).rtdProbed i = some value ∧
    ∀ middle later rest, back = middle ++ .rtd later :: rest →
      later.reading (run config rtdAvailable clicksAvailable (front ++ .rtd pass :: middle)).rtdProbed i = none) ∨
  (Source config "max31865_click" ∧ ∃ click : Fin 2, config.sensors.max31865SampleIndices[click.val]? = some i ∧
    ∃ front pass back, history = front ++ .clicks pass :: back ∧
      (∃ reading, pass.readOneShot click = .ok reading ∧ reading.valid = true ∧ reading.resistanceOhm = value) ∧
      ∀ later, Event.clicks later ∈ back → (later.readOneShot click).isOk = false)

end Law

section Steps

variable {config : OnboardConfig} {rtdAvailable clicksAvailable : Bool} {manager : SensorManager} {i : ℕ}

/-- What the conversion of a click writes into an entry, if anything. -/
def ClickPass.written (pass : ClickPass) (config : OnboardConfig) (i : ℕ) (click : Fin 2) : Option Double :=
  match pass.readOneShot click, config.sensors.max31865SampleIndices[click.val]? with
  | .ok reading, some index =>
    if index = i then some (if reading.valid then reading.resistanceOhm else wholeFloat 0) else none
  | _, _ => none

/-- What an event writes into an entry, if anything. -/
def written (config : OnboardConfig) (manager : SensorManager) (event : Event) (i : ℕ) : Option Double :=
  match event with
  | .pullCompleted _ => none
  | .rtd pass => if Source config "sequent_rtd" then pass.reading manager.rtdProbed i else none
  | .clicks pass =>
    if Source config "max31865_click" then (pass.written config i 1).or (pass.written config i 0) else none

/-- An entry after a reading of the card. -/
theorem getElem?_storeReading (owns : Bool) (resistances : List Double) (pass : RtdPass) (probed : Bool)
    {reading : RtdReading} (h : pass.outcome probed = .ok reading) :
    (storeReading owns resistances reading)[i]? =
      resistances[i]?.map fun old => (if owns then pass.reading probed i else none).getD old := by
  rw [storeReading, List.getElem?_mapIdx]
  congr 1
  funext old
  rw [RtdPass.reading, h]
  by_cases hi : i < 8
  · cases owns <;> cases hvalid : reading.channelValid ⟨i, hi⟩ <;> simp [hi, hvalid]
  · cases owns <;> simp [hi]

/-- An entry after the conversion of a click. -/
theorem getElem?_storeClick (hsource : Source config "max31865_click") (pass : ClickPass) (resistances : List Double)
    (click : Fin 2) :
    (storeClick config pass resistances click)[i]? =
      resistances[i]?.map fun old => (pass.written config i click).getD old := by
  rw [storeClick, ClickPass.written]
  cases pass.readOneShot click with
  | error => simp
  | ok reading =>
    cases config.sensors.max31865SampleIndices[click.val]? with
    | none => simp
    | some index =>
      dsimp only
      rw [if_pos hsource, List.getElem?_set]
      by_cases hsame : index = i
      · subst hsame
        by_cases hin : index < resistances.length
        · simp [hin]
        · simp [hin]
      · simp [hsame]

/-- A click that is not the source stores nothing. -/
theorem storeClick_of_not_source (hsource : ¬ Source config "max31865_click") (pass : ClickPass)
    (resistances : List Double) (click : Fin 2) : storeClick config pass resistances click = resistances := by
  rw [storeClick]
  split
  · rw [if_neg hsource]
  · rfl

/-- An entry after an event, unless the source is simulated. -/
theorem getElem?_step (hsource : ¬ Source config "simulated") (event : Event) :
    (step config manager event).sampleResistanceOhm[i]? =
      manager.sampleResistanceOhm[i]?.map fun old => (written config manager event i).getD old := by
  cases event with
  | pullCompleted motorId =>
    rw [step, notePullCompleted, if_pos hsource]
    simp [written]
  | rtd pass =>
    rw [step, sequentRtdPass, written]
    cases houtcome : pass.outcome manager.rtdProbed with
    | error error => simp [RtdPass.reading, houtcome]
    | ok reading =>
      refine (getElem?_storeReading _ _ pass manager.rtdProbed houtcome).trans ?_
      simp only [decide_eq_true_eq]
  | clicks pass =>
    rw [step, max31865Pass, written]
    by_cases howns : Source config "max31865_click"
    · rw [if_pos howns]
      change (storeClick config pass (storeClick config pass manager.sampleResistanceOhm 0) 1)[i]? = _
      rw [getElem?_storeClick howns, getElem?_storeClick howns, Option.map_map]
      congr 1
      funext old
      cases pass.written config i 1 <;> simp
    · rw [if_neg howns]
      change (storeClick config pass (storeClick config pass manager.sampleResistanceOhm 0) 1)[i]? = _
      rw [storeClick_of_not_source howns, storeClick_of_not_source howns]
      simp

/-- An entry of the simulated source after an event. -/
theorem getElem?_step_simulated (hsource : Source config "simulated") (event : Event) :
    (step config manager event).sampleResistanceOhm[i]? =
      manager.sampleResistanceOhm[i]?.map fun old => if decays i event then floatMul old keptPerPull else old := by
  have hother {name : String} (hne : "simulated" ≠ name) : ¬ Source config name := fun h => by
    rw [Source] at h hsource
    exact hne (String.toList_inj.mp (hsource.symm.trans h))
  cases event with
  | pullCompleted motorId =>
    rw [step, notePullCompleted, if_neg (not_not.mpr hsource), decays]
    by_cases hmotor : motorId ≠ 0 ∧ motorId ≠ 1
    · rw [if_pos hmotor]
      simp [hmotor.1, hmotor.2]
    · rw [if_neg hmotor]
      change (manager.sampleResistanceOhm.mapIdx _)[i]? = _
      rw [List.getElem?_mapIdx]
      cases hentry : manager.sampleResistanceOhm[i]? with
      | none => rfl
      | some old =>
        have hin : i < manager.sampleResistanceOhm.length := (List.getElem?_eq_some_iff.mp hentry).1
        rw [Option.map_some, Option.map_some]
        congr 1
        by_cases hzero : motorId = 0
        · simp [hzero]
        · have hone : motorId = 1 := by
            by_contra hne
            exact hmotor ⟨hzero, hne⟩
          subst hone
          by_cases hlow : i < 4
          · simp [hlow]
          · simp [hlow, hin, not_lt.mp hlow]
  | rtd pass =>
    rw [step, sequentRtdPass]
    cases houtcome : pass.outcome manager.rtdProbed with
    | error error => simp [decays]
    | ok reading =>
      refine (getElem?_storeReading _ _ pass manager.rtdProbed houtcome).trans ?_
      simp [decays, hother (show "simulated" ≠ "sequent_rtd" by decide)]
  | clicks pass =>
    have hclicks : ¬ Source config "max31865_click" := hother (by decide)
    rw [step, max31865Pass]
    change (storeClick config pass (storeClick config pass manager.sampleResistanceOhm 0) 1)[i]? = _
    rw [storeClick_of_not_source hclicks, storeClick_of_not_source hclicks]
    simp [decays]

end Steps

section Runs

variable {config : OnboardConfig} {rtdAvailable clicksAvailable : Bool} {history : List Event} {i : ℕ} {value : Double}

/-- One more event. -/
theorem run_concat (event : Event) : run config rtdAvailable clicksAvailable (history ++ [event]) =
    step config (run config rtdAvailable clicksAvailable history) event := by
  rw [run, List.foldl_concat]
  rfl

/-- An entry of the simulated source is the initial one after the pulls of its motor. -/
theorem simulated_run (hsource : Source config "simulated")
    (h : (run config rtdAvailable clicksAvailable history).sampleResistanceOhm[i]? = some value) :
    Simulated config history i value := by
  refine ⟨hsource, ?_⟩
  induction history using List.reverseRecOn generalizing value with
  | nil =>
    change (List.replicate _ (if Source config "simulated" then initialResistanceOhm else wholeFloat 0))[i]? = _ at h
    rw [if_pos hsource] at h
    exact (List.eq_of_mem_replicate (List.mem_of_getElem? h))
  | append_singleton history event ih =>
    rw [run_concat, getElem?_step_simulated hsource, Option.map_eq_some_iff] at h
    obtain ⟨old, hold, rfl⟩ := h
    rw [ih hold, List.countP_append, List.countP_singleton]
    cases decays i event with
    | false => rfl
    | true =>
      rw [if_pos rfl, if_pos rfl, Function.iterate_succ_apply']

/-- An entry of another source is zero or what the last event that wrote it has written. -/
theorem written_run (hsource : ¬ Source config "simulated")
    (h : (run config rtdAvailable clicksAvailable history).sampleResistanceOhm[i]? = some value)
    (hvalue : value ≠ wholeFloat 0) :
    ∃ front event back, history = front ++ event :: back ∧
      written config (run config rtdAvailable clicksAvailable front) event i = some value ∧
      ∀ middle later rest, back = middle ++ later :: rest →
        written config (run config rtdAvailable clicksAvailable (front ++ event :: middle)) later i = none := by
  induction history using List.reverseRecOn with
  | nil =>
    change (List.replicate _ (if Source config "simulated" then initialResistanceOhm else wholeFloat 0))[i]? = _ at h
    rw [if_neg hsource] at h
    exact absurd (List.eq_of_mem_replicate (List.mem_of_getElem? h)) hvalue
  | append_singleton history event ih =>
    rw [run_concat, getElem?_step hsource, Option.map_eq_some_iff] at h
    obtain ⟨old, hold, hnew⟩ := h
    cases hwritten : written config (run config rtdAvailable clicksAvailable history) event i with
    | some fresh =>
      rw [hwritten, Option.getD_some] at hnew
      refine ⟨history, event, [], rfl, by rw [hwritten, hnew], fun middle later rest hsplit => ?_⟩
      exact absurd hsplit (by simp)
    | none =>
      rw [hwritten, Option.getD_none] at hnew
      obtain ⟨front, first, back, hhistory, hfirst, hlast⟩ := ih (hnew ▸ hold)
      refine ⟨front, first, back ++ [event], by rw [hhistory]; simp, hfirst, fun middle later rest hsplit => ?_⟩
      rcases List.eq_nil_or_concat rest with rfl | ⟨shorter, last, rfl⟩
      · obtain ⟨rfl, hlater⟩ := List.append_inj' hsplit rfl
        obtain rfl := (List.cons.inj hlater).1
        rw [← hhistory]
        exact hwritten
      · refine hlast middle later shorter ?_
        rw [List.concat_eq_append, ← List.cons_append, ← List.append_assoc] at hsplit
        exact (List.append_inj' hsplit rfl).1

/-- For every configuration and every order of pulls, polls of the card and polls of the clicks, an entry that a snapshot
shows is zero or the last good value of the configured source. -/
theorem lastGood_readSnapshot (config : OnboardConfig) (rtdAvailable clicksAvailable inaHealthy : Bool)
    (history : List Event) (i : ℕ) (value : Double)
    (h : (readSnapshot config (run config rtdAvailable clicksAvailable history) inaHealthy).2[i]? = some value)
    (hvalue : value ≠ wholeFloat 0) : LastGood config rtdAvailable clicksAvailable history i value := by
  have hentry : (run config rtdAvailable clicksAvailable history).sampleResistanceOhm[i]? = some value := by
    have hblank (hzero : (List.replicate config.hardware.sampleCount (wholeFloat 0))[i]? = some value) : False :=
      hvalue (List.eq_of_mem_replicate (List.mem_of_getElem? hzero))
    rw [readSnapshot] at h
    repeat' split at h
    all_goals first | exact h | exact (hblank h).elim
  by_cases hsource : Source config "simulated"
  · exact Or.inl (simulated_run hsource hentry)
  obtain ⟨front, event, back, hhistory, hwritten, hlast⟩ := written_run hsource hentry hvalue
  cases event with
  | pullCompleted motorId => cases hwritten
  | rtd pass =>
    rw [written] at hwritten
    split at hwritten
    case isFalse => cases hwritten
    case isTrue hrtd =>
      refine Or.inr (Or.inl ⟨hrtd, front, pass, back, hhistory, hwritten, fun middle later rest hsplit => ?_⟩)
      have hnone := hlast middle (.rtd later) rest hsplit
      rwa [written, if_pos hrtd] at hnone
  | clicks pass =>
    rw [written] at hwritten
    split at hwritten
    case isFalse => cases hwritten
    case isTrue hclick =>
      have hanswer {click : Fin 2} (hone : pass.written config i click = some value) :
          config.sensors.max31865SampleIndices[click.val]? = some i ∧
            ∃ reading, pass.readOneShot click = .ok reading ∧ reading.valid = true ∧ reading.resistanceOhm = value := by
        rw [ClickPass.written] at hone
        split at hone
        case h_2 => cases hone
        case h_1 reading index hreading hindex =>
          split at hone
          case isFalse => cases hone
          case isTrue hsame =>
            have hshown := Option.some.inj hone
            cases hvalid : reading.valid with
            | false =>
              rw [hvalid, if_neg Bool.false_ne_true] at hshown
              exact absurd hshown.symm hvalue
            | true =>
              rw [hvalid, if_pos rfl] at hshown
              exact ⟨by rw [hindex, hsame], reading, hreading, hvalid, hshown⟩
      have hsilent {click : Fin 2} (hindex : config.sensors.max31865SampleIndices[click.val]? = some i)
          (later : ClickPass) (hlater : Event.clicks later ∈ back) : (later.readOneShot click).isOk = false := by
        obtain ⟨middle, rest, hsplit⟩ := List.append_of_mem hlater
        have hnone := hlast middle (.clicks later) rest hsplit
        rw [written, if_pos hclick, Option.or_eq_none_iff] at hnone
        have hclickNone : later.written config i click = none := by
          match click with
          | 0 => exact hnone.2
          | 1 => exact hnone.1
        rw [ClickPass.written, hindex] at hclickNone
        cases hresult : later.readOneShot click with
        | error error => rfl
        | ok reading =>
          rw [hresult] at hclickNone
          simp at hclickNone
      refine Or.inr (Or.inr ⟨hclick, ?_⟩)
      rcases Option.or_eq_some_iff.mp hwritten with hone | ⟨_, hzero⟩
      · obtain ⟨hindex, hreading⟩ := hanswer hone
        exact ⟨1, hindex, front, pass, back, hhistory, hreading, hsilent hindex⟩
      · obtain ⟨hindex, hreading⟩ := hanswer hzero
        exact ⟨0, hindex, front, pass, back, hhistory, hreading, hsilent hindex⟩

end Runs

/-- A configuration whose resistances are those of the card. -/
def cardConfig : OnboardConfig :=
  { OnboardConfig.default Text.nearestDouble with
    sensors := { (OnboardConfig.default Text.nearestDouble).sensors with resistanceSource := "sequent_rtd".toList } }

/-- The card reads one resistance on all channels. -/
def goodPass : RtdPass where
  probe := .ok ()
  readAll := .ok ⟨fun _ => wholeFloat 25, fun _ => wholeFloat 110, fun _ => true, fun _ => .none⟩
  now := 1000

/-- The card does not answer. -/
def deadPass : RtdPass where
  probe := .error "BUS_OPEN_FAILED"
  readAll := .error "RESISTANCE_READ_FAILED"
  now := 2000

/-- A resistance of the card is still shown after the card stopped to answer. -/
theorem readSnapshot_goodPass_deadPass :
    (readSnapshot cardConfig (run cardConfig true true [.rtd goodPass, .rtd deadPass]) false).2[0]? =
      some (wholeFloat 110) := by
  decide +kernel

/-- The resistance that is still shown is the last good one. -/
theorem lastGood_readSnapshot_goodPass_deadPass :
    LastGood cardConfig true true [.rtd goodPass, .rtd deadPass] 0 (wholeFloat 110) :=
  lastGood_readSnapshot cardConfig true true false [.rtd goodPass, .rtd deadPass] 0 (wholeFloat 110)
    readSnapshot_goodPass_deadPass (by decide)

/-- Not every resistance that is shown is from the most recent poll of its source: the last good one stays after a failure. -/
theorem not_fromMostRecentPoll_goodPass_deadPass : ¬ ∀ (config : OnboardConfig)
    (rtdAvailable clicksAvailable inaHealthy : Bool) (history : List Event) (i : ℕ) (value : Double),
    (readSnapshot config (run config rtdAvailable clicksAvailable history) inaHealthy).2[i]? = some value →
      value ≠ wholeFloat 0 → FromMostRecentPoll config rtdAvailable clicksAvailable history i value := by
  intro hall
  rcases hall cardConfig true true false [.rtd goodPass, .rtd deadPass] 0 (wholeFloat 110)
    readSnapshot_goodPass_deadPass (by decide) with ⟨hsource, _⟩ | ⟨_, front, pass, back, hhistory, hreading, hlast⟩ |
      ⟨hsource, _⟩
  · exact absurd hsource (by decide +kernel)
  · cases front with
    | nil =>
      obtain ⟨_, hback⟩ := List.cons.inj hhistory
      exact hlast deadPass (hback ▸ List.mem_singleton_self _)
    | cons first front =>
      obtain ⟨rfl, hrest⟩ := List.cons.inj hhistory
      cases front with
      | nil =>
        obtain ⟨hpass, _⟩ := List.cons.inj hrest
        obtain rfl := Event.rtd.inj hpass
        exact absurd hreading (by decide +kernel)
      | cons second front => exact absurd (List.cons.inj hrest).2 (by simp)
  · exact absurd hsource (by decide +kernel)

end Coatheal.Sensors
