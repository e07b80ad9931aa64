import Coatheal.Library.Numeric

/-!
# The PID controller and its relay tuner

The controller clamps its output and integrates only while that can still
change the output. The tuner switches a heater between zero and a fixed duty,
measures the oscillation this makes and derives gains from it.
-/

namespace Coatheal.Heater

open Coatheal.Library

/-- Proportional, integral and derivative gain. -/
structure PidGains where
  kp : ℚ := 0
  ki : ℚ := 0
  kd : ℚ := 0
deriving DecidableEq

/-- A PID controller with its limits and memory. -/
structure PidController where
  gains : PidGains
  outputMin : ℚ
  outputMax : ℚ
  integralMin : ℚ
  integralMax : ℚ
  integral : ℚ := 0
  prevError : ℚ := 0
  hasPrev : Bool := false
deriving DecidableEq

namespace PidController

/-- Use other gains from now on. -/
def setGains (pid : PidController) (gains : PidGains) : PidController :=
  { pid with gains := gains }

/-- Forget the integral and the last error. -/
def reset (pid : PidController) : PidController :=
  { pid with integral := 0, prevError := 0, hasPrev := false }

/-- The output for a measurement, and the controller after it. -/
def update (pid : PidController) (setpoint measured dt : ℚ) : ℚ × PidController :=
  let safeDt := if dt ≤ 1 / 1000000 then 1 / 1000 else dt
  let error := setpoint - measured
  let derivative := if pid.hasPrev then (error - pid.prevError) / safeDt else 0
  let tentative := pid.gains.kp * error + pid.gains.ki * (pid.integral + error * safeDt) +
    pid.gains.kd * derivative
  -- The integral stands still while the output is saturated in the direction of the error.
  let saturating := (tentative > pid.outputMax ∧ error > 0) ∨ (tentative < pid.outputMin ∧ error < 0)
  let integral :=
    if saturating then pid.integral
    else clamp (pid.integral + error * safeDt) pid.integralMin pid.integralMax
  let out := pid.gains.kp * error + pid.gains.ki * integral + pid.gains.kd * derivative
  (clamp out pid.outputMin pid.outputMax,
    { pid with integral := integral, prevError := error, hasPrev := true })

end PidController

/-- What a tune is to do. -/
structure TunerConfig where
  setpointC : ℚ := 40
  relayDuty : ℚ := 1 / 2
  hysteresisC : ℚ := 1
  cycles : ℤ := 4
  timeoutS : ℚ := 1500
  abortCeilingC : ℚ := 80
deriving DecidableEq

/-- What a tune measured, and the gains by the two rule sets. -/
structure TunerResult where
  ku : ℚ := 0
  tuS : ℚ := 0
  amplitudeC : ℚ := 0
  cyclesUsed : ℕ := 0
  kp : ℚ := 0
  ki : ℚ := 0
  kd : ℚ := 0
  znKp : ℚ := 0
  znKi : ℚ := 0
  znKd : ℚ := 0
deriving DecidableEq

/-- The state of a tune. -/
inductive TunerState where
  | idle
  | running
  | done
  | failed
deriving DecidableEq, Repr

/-- The relay tuner. The extremes are those of the phase under way. -/
structure PidAutoTuner where
  state : TunerState := .idle
  cfg : TunerConfig := {}
  result : TunerResult := {}
  error : String := ""
  startS : ℚ := 0
  relayOn : Bool := true
  firstOnPhase : Bool := true
  haveOnSwitch : Bool := false
  lastOnSwitchS : ℚ := 0
  troughC : ℚ := 0
  peakC : ℚ := 0
  peaksC : List ℚ := []
  troughsC : List ℚ := []
  periodsS : List ℚ := []
deriving DecidableEq

namespace PidAutoTuner

/-- The circle constant as the source writes it. -/
def kPi : ℚ := 314159265358979323846 / 100000000000000000000

/-- The largest double. -/
def doubleMax : ℚ := (2 ^ 53 - 1) * 2 ^ 971

/-- The mean of a list, zero for none. -/
def mean (values : List ℚ) : ℚ := if values = [] then 0 else values.sum / values.length

/-- A tune is running. -/
def active (t : PidAutoTuner) : Bool := t.state = .running

/-- Begin a tune. -/
def start (cfg : TunerConfig) (nowS : ℚ) : PidAutoTuner where
  state := .running
  cfg := cfg
  startS := nowS
  troughC := doubleMax
  peakC := -doubleMax

/-- End a tune for a reason. -/
def fail (t : PidAutoTuner) (reason : String) : PidAutoTuner :=
  { t with state := .failed, error := reason }

/-- End a tune that is running. -/
def abort (t : PidAutoTuner) (reason : String) : PidAutoTuner :=
  if t.state = .running then t.fail reason else t

/-- The gains from the oscillation measured, unless it is too small or too fast. -/
def finish (t : PidAutoTuner) : PidAutoTuner :=
  let amplitude := (mean t.peaksC - mean t.troughsC) / 2
  let tu := mean t.periodsS
  if amplitude < 1 / 20 then
    t.fail "oscillation amplitude too small to measure (< 0.05 C)"
  else if tu < 5 then t.fail "oscillation period too short for the control rate"
  else
    let d := t.cfg.relayDuty / 2
    let ku := 4 * d / (kPi * amplitude)
    let kp := ku / (32 / 10)
    let znKp := 6 / 10 * ku
    { t with
      state := .done
      result := {
        ku := ku
        tuS := tu
        amplitudeC := amplitude
        cyclesUsed := t.periodsS.length
        kp := kp
        ki := kp / (22 / 10 * tu)
        kd := kp * (tu / (63 / 10))
        znKp := znKp
        znKi := znKp / (tu / 2)
        znKd := znKp * (tu / 8) } }

/-- One measurement in the heating phase. -/
def tickOn (t : PidAutoTuner) (tempC : ℚ) : PidAutoTuner :=
  let t := { t with troughC := min t.troughC tempC }
  if t.cfg.setpointC + t.cfg.hysteresisC ≤ tempC then
    -- The trough of the approach from ambient is not part of the cycle.
    let t := if t.firstOnPhase then t else { t with troughsC := t.troughsC ++ [t.troughC] }
    { t with firstOnPhase := false, relayOn := false, peakC := tempC }
  else t

/-- One measurement in the cooling phase; whether enough cycles have been seen. -/
def tickOff (t : PidAutoTuner) (tempC nowS : ℚ) : PidAutoTuner × Bool :=
  let t := { t with peakC := max t.peakC tempC }
  if tempC ≤ t.cfg.setpointC - t.cfg.hysteresisC then
    let t := { t with peaksC := t.peaksC ++ [t.peakC] }
    let t := if t.haveOnSwitch then { t with periodsS := t.periodsS ++ [nowS - t.lastOnSwitchS] } else t
    let t := { t with haveOnSwitch := true, lastOnSwitchS := nowS, relayOn := true, troughC := tempC }
    let need := (max 1 t.cfg.cycles).toNat
    (t, need ≤ t.periodsS.length && need ≤ t.troughsC.length && need ≤ t.peaksC.length)
  else (t, false)

/-- One control tick: the duty the relay wants, zero unless the tune runs on, and the tuner after
it. -/
def tick (t : PidAutoTuner) (tempValid : Bool) (tempC nowS : ℚ) : ℚ × PidAutoTuner :=
  if t.state ≠ .running then (0, t)
  else if tempValid = false then (0, t.fail "temperature reading became invalid")
  else if t.cfg.abortCeilingC ≤ tempC then (0, t.fail "temperature exceeded the tune ceiling")
  else if t.cfg.timeoutS < nowS - t.startS then
    (0, t.fail "timed out before the oscillation settled")
  else
    let (t, complete) := if t.relayOn then (t.tickOn tempC, false) else t.tickOff tempC nowS
    if complete then (0, t.finish)
    else (if t.relayOn then t.cfg.relayDuty else 0, t)

/-- A tune that is ended no longer runs. -/
theorem abort_active (t : PidAutoTuner) (reason : String) : (t.abort reason).active = false := by
  unfold abort active
  split
  · rfl
  · rename_i hrunning
    exact decide_eq_false hrunning

/-- A tune that does not run stays as it is. -/
theorem tick_of_not_active {t : PidAutoTuner} (h : t.active = false) (tempValid : Bool)
    (tempC nowS : ℚ) : (t.tick tempValid tempC nowS).2 = t := by
  have hstate : t.state ≠ .running := of_decide_eq_false h
  rw [tick, if_pos hstate]

/-- Ending a tune keeps its settings. -/
theorem abort_cfg (t : PidAutoTuner) (reason : String) : (t.abort reason).cfg = t.cfg := by
  unfold abort fail
  split <;> rfl

/-- A measurement while heating keeps the settings. -/
theorem tickOn_cfg (t : PidAutoTuner) (tempC : ℚ) : (t.tickOn tempC).cfg = t.cfg := by
  unfold tickOn
  dsimp only
  split
  · split <;> rfl
  · rfl

/-- A measurement while cooling keeps the settings. -/
theorem tickOff_cfg (t : PidAutoTuner) (tempC nowS : ℚ) : (t.tickOff tempC nowS).1.cfg = t.cfg := by
  unfold tickOff
  dsimp only
  split
  · split <;> rfl
  · rfl

/-- Working out the gains keeps the settings. -/
theorem finish_cfg (t : PidAutoTuner) : t.finish.cfg = t.cfg := by
  unfold finish
  dsimp only
  split
  · rfl
  · split <;> rfl

/-- A tick keeps the settings, and the relay asks for its duty or for none. -/
theorem tick_spec (t : PidAutoTuner) (tempValid : Bool) (tempC nowS : ℚ) :
    (t.tick tempValid tempC nowS).2.cfg = t.cfg ∧
      ((t.tick tempValid tempC nowS).1 = 0 ∨ (t.tick tempValid tempC nowS).1 = t.cfg.relayDuty) := by
  have hmeasured : (if t.relayOn then (t.tickOn tempC, false) else t.tickOff tempC nowS).1.cfg = t.cfg := by
    split
    · exact tickOn_cfg t tempC
    · exact tickOff_cfg t tempC nowS
  unfold tick
  generalize (if t.relayOn then (t.tickOn tempC, false) else t.tickOff tempC nowS) = measured
    at hmeasured ⊢
  dsimp only
  split
  · exact ⟨rfl, Or.inl rfl⟩
  split
  · exact ⟨rfl, Or.inl rfl⟩
  split
  · exact ⟨rfl, Or.inl rfl⟩
  split
  · exact ⟨rfl, Or.inl rfl⟩
  split
  · exact ⟨(finish_cfg _).trans hmeasured, Or.inl rfl⟩
  · refine ⟨hmeasured, ?_⟩
    rw [hmeasured]
    split
    · exact Or.inr rfl
    · exact Or.inl rfl

end PidAutoTuner

end Coatheal.Heater
