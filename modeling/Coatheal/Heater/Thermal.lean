import Coatheal.Heater.Pid
import Coatheal.Heater.Scheduler
import Coatheal.Mission
import Mathlib.Algebra.Order.Group.MinMax

/-!
# The thermal controller

One call turns a sensor snapshot and the operator's overrides into a requested
duty for each heater. A reading above the limit latches its heater, and the
latch is enforced after all overrides.
-/

namespace Coatheal.Heater

open Coatheal.Library

/-- The settings of the heaters. -/
structure HeaterConfig where
  temperatureChannels : List ℕ := [0, 1, 2, 3, 4, 5]
  maxDuty : ℚ := 1
  debugMaxDuty : ℚ := 1 / 4
  debugMaxSeconds : ℚ := 10
  maxSampleTempC : ℚ := 80
  targetMinC : ℚ := 0
  targetMaxC : ℚ := 75
  sampleFloorC : ℚ := 5
  uniformityToleranceC : ℚ := 2
  pid : PidGains := ⟨2 / 10, 2 / 100, 3 / 100⟩
  debugArmCode : String := "COATHEAL_DEBUG"
deriving DecidableEq

/-- The sample temperatures and which of them are valid; all are when the list is empty. -/
structure SensorSnapshot where
  sampleTempsC : List ℚ := []
  sampleTempValid : List Bool := []
deriving DecidableEq

/-- What the operator asked of the heaters. -/
structure ControlOverrides (n : ℕ) where
  heatersOff : Bool := false
  floorControlEnabled : Bool := true
  singleHeaterOverride : Option (ℕ × ℚ) := none
  allHeatersOverride : Option ℚ := none
  heaterDutyOverrides : Fin n → Option ℚ := fun _ => none
  tempTargetsC : Fin n → Option ℚ := fun _ => none
  pidOverrides : Fin n → Option PidGains := fun _ => none
  pidOverride : Option PidGains := none
  benchOpenLoopHeaters : Bool := false

/-- The controller of `n` heaters. -/
structure ThermalController (n : ℕ) where
  samplePids : Fin n → PidController
  channelLatched : Fin n → Bool
  sampleHeating : Fin n → Bool
  activeTargetsC : Fin n → Option ℚ
  overtempLatched : Bool
  uniformityOk : Bool

/-- The floor controller switches on this much below the floor. -/
def kFloorHysteresisC : ℚ := 1 / 2

/-- The sample whose temperature governs a heater. -/
def HeaterConfig.sensorChannel (cfg : HeaterConfig) (heater : ℕ) : ℕ :=
  cfg.temperatureChannels.getD heater heater

/-- The reading of a sample, when there is a valid one. -/
def SensorSnapshot.reading (sensors : SensorSnapshot) (sample : ℕ) : Option ℚ :=
  if sensors.sampleTempValid = [] ∨ sensors.sampleTempValid[sample]? = some true then
    sensors.sampleTempsC[sample]?
  else none

/-- The reading that governs a heater, when there is a valid one. -/
def HeaterConfig.governing (cfg : HeaterConfig) (sensors : SensorSnapshot) (heater : ℕ) : Option ℚ :=
  sensors.reading (cfg.sensorChannel heater)

/-- A valid reading of the sensor governing a heater exceeds the limit. -/
def HeaterConfig.tooHot (cfg : HeaterConfig) (sensors : SensorSnapshot) (heater : ℕ) : Bool :=
  match cfg.governing sensors heater with
  | some temp => cfg.maxSampleTempC < temp
  | none => false

variable {n : ℕ}

/-- Some heater has a duty override. -/
def ControlOverrides.anyDutyOverride (o : ControlOverrides n) : Bool :=
  (List.finRange n).any fun i => (o.heaterDutyOverrides i).isSome

/-- Some heater has a temperature target. -/
def ControlOverrides.anyTempTarget (o : ControlOverrides n) : Bool :=
  (List.finRange n).any fun i => (o.tempTargetsC i).isSome

/-- Some duty is commanded directly. -/
def ControlOverrides.hasDirectOverride (o : ControlOverrides n) : Bool :=
  o.allHeatersOverride.isSome || o.singleHeaterOverride.isSome || o.anyDutyOverride

namespace ThermalController

/-- A new controller. -/
def new (cfg : HeaterConfig) : ThermalController n where
  samplePids _ := ⟨cfg.pid, 0, cfg.maxDuty, -1000, 1000, 0, 0, false⟩
  channelLatched _ := false
  sampleHeating _ := false
  activeTargetsC _ := none
  overtempLatched := false
  uniformityOk := true

/-- Forget everything, the latches included. The gains stay. -/
def reset (t : ThermalController n) : ThermalController n where
  samplePids i := (t.samplePids i).reset
  channelLatched _ := false
  sampleHeating _ := false
  activeTargetsC _ := none
  overtempLatched := false
  uniformityOk := true

/-- Latch the heaters that are too hot and watch the spread of the valid readings. -/
def monitor (cfg : HeaterConfig) (t : ThermalController n) (phase : MissionPhase)
    (sensors : SensorSnapshot) : ThermalController n :=
  let latched := fun i : Fin n => t.channelLatched i || cfg.tooHot sensors i
  let valid := (List.finRange n).filterMap fun i => cfg.governing sensors i
  let uneven := match valid with
    | first :: second :: rest =>
      cfg.uniformityToleranceC <
        (second :: rest).foldl max first - (second :: rest).foldl min first
    | _ => false
  { t with
    channelLatched := latched
    overtempLatched := (List.finRange n).any latched
    uniformityOk := !(phase.flying && !sensors.sampleTempsC.isEmpty && uneven) }

/-- Take over the gains the operator set. -/
def applyGains (t : ThermalController n) (o : ControlOverrides n) : ThermalController n :=
  { t with samplePids := fun i =>
      let pid := match o.pidOverride with
        | some gains => (t.samplePids i).setGains gains
        | none => t.samplePids i
      match o.pidOverrides i with
      | some gains => pid.setGains gains
      | none => pid }

/-- Closed-loop control of one heater: its duty, controller, heating flag and target. -/
def regulateOne (cfg : HeaterConfig) (t : ThermalController n) (floorActive : Bool)
    (sensors : SensorSnapshot) (dt : ℚ) (o : ControlOverrides n) (i : Fin n) :
    ℚ × PidController × Bool × Option ℚ :=
  let pid := t.samplePids i
  match cfg.governing sensors i with
  | none => (0, pid.reset, false, none)
  | some measured =>
    match o.tempTargetsC i with
    | some target =>
      -- On both sides of the target, so that the integral can hold it.
      let (duty, pid) := pid.update target measured dt
      (duty, pid, decide (0 < duty), some target)
    | none =>
      if floorActive = false then (0, pid, false, none)
      else
        let target := cfg.sampleFloorC
        if t.sampleHeating i ∧ target ≤ measured then (0, pid.reset, false, some target)
        else if t.sampleHeating i ∨ measured < target - kFloorHysteresisC then
          let (duty, pid) := pid.update target measured dt
          (duty, pid, true, some target)
        else (0, pid, false, some target)

/-- Closed-loop control of every heater. -/
def regulate (cfg : HeaterConfig) (t : ThermalController n) (floorActive : Bool)
    (sensors : SensorSnapshot) (dt : ℚ) (o : ControlOverrides n) :
    (Fin n → ℚ) × ThermalController n :=
  let result := t.regulateOne cfg floorActive sensors dt o
  (fun i => (result i).1,
    { t with
      samplePids := fun i => (result i).2.1
      sampleHeating := fun i => (result i).2.2.1
      activeTargetsC := fun i => (result i).2.2.2 })

/-- Directly commanded duties replace the regulated ones: all, then a single one, then each. -/
def overrideDuty (o : ControlOverrides n) (duty : Fin n → ℚ) (i : Fin n) : ℚ :=
  let duty := match o.allHeatersOverride with
    | some value => clamp value 0 1
    | none => duty i
  let duty := match o.singleHeaterOverride with
    | some (index, value) => if index = i.val then clamp value 0 1 else duty
    | none => duty
  match o.heaterDutyOverrides i with
  | some value => clamp value 0 1
  | none => duty

/-- The duty that the direct overrides by themselves ask of a heater. -/
def directDuty (o : ControlOverrides n) (i : Fin n) : ℚ :=
  if o.heatersOff then 0 else overrideDuty o (fun _ => 0) i

/-- The latch, the need for a valid reading and the power ceiling, last of all. -/
def enforce (cfg : HeaterConfig) (t : ThermalController n) (sensors : SensorSnapshot)
    (o : ControlOverrides n) (duty : Fin n → ℚ) (i : Fin n) : ℚ :=
  let invalid := (cfg.governing sensors i).isNone
  min (if (invalid ∧ o.benchOpenLoopHeaters = false) ∨ t.channelLatched i then 0 else duty i)
    cfg.maxDuty

/-- The requested duty of each heater, and the controller after the call. -/
def computeRequestedDuty (cfg : HeaterConfig) (t : ThermalController n) (phase : MissionPhase)
    (sensors : SensorSnapshot) (dt : ℚ) (o : ControlOverrides n) :
    (Fin n → ℚ) × ThermalController n :=
  let t := t.monitor cfg phase sensors
  if o.heatersOff then
    (fun _ => 0, { t with sampleHeating := fun _ => false, activeTargetsC := fun _ => none })
  else
    let t := { t.applyGains o with activeTargetsC := fun _ => none }
    let floorActive := o.floorControlEnabled && phase.flying
    if o.anyTempTarget ∨ floorActive then
      let (duty, t) := t.regulate cfg floorActive sensors dt o
      (t.enforce cfg sensors o (overrideDuty o duty), t)
    else
      let t := { t with sampleHeating := fun _ => false }
      if o.hasDirectOverride = false then (fun _ => 0, t)
      else (t.enforce cfg sensors o (overrideDuty o fun _ => 0), t)

/-- What was latched stays latched and what is too hot is latched; nothing else is. -/
theorem computeRequestedDuty_latched (cfg : HeaterConfig) (t : ThermalController n)
    (phase : MissionPhase) (sensors : SensorSnapshot) (dt : ℚ) (o : ControlOverrides n) (i : Fin n) :
    (t.computeRequestedDuty cfg phase sensors dt o).2.channelLatched i =
      (t.channelLatched i || cfg.tooHot sensors i) := by
  unfold computeRequestedDuty
  dsimp only
  split
  · rfl
  split
  · rfl
  split <;> rfl

/-- The latch is enforced whatever the other sources ask for. -/
theorem enforce_of_latched {cfg : HeaterConfig} {t : ThermalController n} {i : Fin n}
    (h : t.channelLatched i = true) (sensors : SensorSnapshot) (o : ControlOverrides n)
    (duty : Fin n → ℚ) : t.enforce cfg sensors o duty i ≤ 0 := by
  unfold enforce
  dsimp only
  rw [if_pos (Or.inr h)]
  exact min_le_left _ _

/-- A latched heater is requested no duty. -/
theorem computeRequestedDuty_of_latched {cfg : HeaterConfig} {t : ThermalController n}
    {phase : MissionPhase} {sensors : SensorSnapshot} {dt : ℚ} {o : ControlOverrides n} {i : Fin n}
    (h : (t.computeRequestedDuty cfg phase sensors dt o).2.channelLatched i = true) :
    (t.computeRequestedDuty cfg phase sensors dt o).1 i ≤ 0 := by
  rw [computeRequestedDuty_latched] at h
  unfold computeRequestedDuty
  dsimp only
  split
  · exact le_rfl
  split
  · exact enforce_of_latched h _ _ _
  split
  · exact le_rfl
  · exact enforce_of_latched h _ _ _

/-- What the overrides ask of a heater depends on those that concern it. -/
theorem overrideDuty_congr {o other : ControlOverrides n} {duty otherDuty : Fin n → ℚ} {i : Fin n}
    (hall : o.allHeatersOverride = other.allHeatersOverride)
    (hsingle : o.singleHeaterOverride = other.singleHeaterOverride)
    (hown : o.heaterDutyOverrides i = other.heaterDutyOverrides i) (hduty : duty i = otherDuty i) :
    overrideDuty o duty i = overrideDuty other otherDuty i := by
  unfold overrideDuty
  rw [hall, hsingle, hown, hduty]

/-- Without a direct override nothing is asked of a heater. -/
theorem overrideDuty_of_not_direct {o : ControlOverrides n} (h : o.hasDirectOverride = false) (duty : Fin n → ℚ)
    (i : Fin n) : overrideDuty o duty i = duty i := by
  unfold ControlOverrides.hasDirectOverride ControlOverrides.anyDutyOverride at h
  simp only [Bool.or_eq_false_iff, List.any_eq_false, Bool.not_eq_true, Option.isSome_eq_false_iff,
    Option.isNone_iff_eq_none] at h
  obtain ⟨⟨hall, hsingle⟩, hown⟩ := h
  unfold overrideDuty
  rw [hall, hsingle, hown i (List.mem_finRange i)]

/-- A heater without a target is left alone by the closed loop while the floor is off. -/
theorem regulateOne_untargeted {o : ControlOverrides n} {i : Fin n} (h : o.tempTargetsC i = none)
    (cfg : HeaterConfig) (t : ThermalController n) (sensors : SensorSnapshot) (dt : ℚ) :
    (t.regulateOne cfg false sensors dt o i).1 = 0 := by
  unfold regulateOne
  dsimp only
  split
  · rfl
  · rw [h]
    rfl

/-- A heater that is blocked gets nothing, another one its duty up to the ceiling. -/
theorem enforce_eq {cfg : HeaterConfig} (hmax : 0 ≤ cfg.maxDuty) (t : ThermalController n) (sensors : SensorSnapshot)
    (o : ControlOverrides n) (duty : Fin n → ℚ) (i : Fin n) :
    t.enforce cfg sensors o duty i =
      if ((cfg.governing sensors i).isNone ∧ o.benchOpenLoopHeaters = false) ∨ t.channelLatched i = true then 0
      else min (duty i) cfg.maxDuty := by
  unfold enforce
  dsimp only
  split
  · exact min_eq_left hmax
  · rfl

/-- A heater without a target and without the floor gets what the direct overrides ask of it, up to the ceiling,
unless its latch or a missing reading blocks it. -/
theorem computeRequestedDuty_untargeted {cfg : HeaterConfig} {o : ControlOverrides n} {phase : MissionPhase}
    {i : Fin n} (h : o.tempTargetsC i = none) (hfloor : (o.floorControlEnabled && phase.flying) = false)
    (hmax : 0 ≤ cfg.maxDuty) (t : ThermalController n) (sensors : SensorSnapshot) (dt : ℚ) :
    (t.computeRequestedDuty cfg phase sensors dt o).1 i =
      if ((cfg.governing sensors i).isNone ∧ o.benchOpenLoopHeaters = false) ∨
          (t.channelLatched i || cfg.tooHot sensors i) = true then 0
      else min (directDuty o i) cfg.maxDuty := by
  have hzero : min (0 : ℚ) cfg.maxDuty = 0 := min_eq_left hmax
  unfold computeRequestedDuty directDuty
  dsimp only
  by_cases hoff : o.heatersOff = true
  · rw [if_pos hoff, if_pos hoff, hzero, ite_self]
  rw [if_neg hoff, if_neg hoff, hfloor]
  split
  · have hduty (t : ThermalController n) :
        overrideDuty o (t.regulate cfg false sensors dt o).1 i = overrideDuty o (fun _ => 0) i :=
      overrideDuty_congr rfl rfl rfl (regulateOne_untargeted h cfg t sensors dt)
    refine (enforce_eq hmax _ sensors o _ i).trans ?_
    rw [hduty]
    rfl
  · split
    case isTrue hdirect => rw [overrideDuty_of_not_direct hdirect, hzero, ite_self]
    case isFalse =>
      exact enforce_eq hmax _ sensors o _ i

end ThermalController

end Coatheal.Heater
