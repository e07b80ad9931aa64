import Coatheal.Heater.Quiet

/-!
# Heat without feedback

A monitor keeps the sensor snapshot of the tick and whether bench mode was on
with the debug arm at some moment of it. A heater without a valid reading is
heated under the open-loop flag alone. The flag is granted with a duty command
and copied when a tick begins, and switching bench mode off leaves it standing.
-/

namespace Coatheal.Heater

open Coatheal.Library

variable {n : ℕ}

namespace ThermalController

/-- The limits leave a heater without a valid reading off, but for a duty that is open-loop. -/
theorem enforce_of_invalid {cfg : HeaterConfig} {t : ThermalController n} {sensors : SensorSnapshot}
    {o : ControlOverrides n} {duty : Fin n → ℚ} {i : Fin n} (hinvalid : cfg.governing sensors i = none)
    (hopen : o.benchOpenLoopHeaters = true → t.channelLatched i = false → duty i ≤ 0) :
    t.enforce cfg sensors o duty i ≤ 0 := by
  unfold enforce
  dsimp only
  refine (min_le_left _ _).trans ?_
  split
  · exact le_rfl
  · rename_i hfree
    rw [hinvalid] at hfree
    have hflag : o.benchOpenLoopHeaters = true := by
      by_contra hno
      exact hfree (Or.inl ⟨rfl, Bool.eq_false_of_not_eq_true hno⟩)
    have hlatch : t.channelLatched i = false := by
      by_contra hyes
      exact hfree (Or.inr (Bool.eq_true_of_not_eq_false hyes))
    exact hopen hflag hlatch

/-- Closed-loop control answers zero without a valid reading. -/
theorem regulate_of_invalid {cfg : HeaterConfig} (t : ThermalController n) (floorActive : Bool)
    {sensors : SensorSnapshot} (dt : ℚ) (o : ControlOverrides n) {i : Fin n}
    (hinvalid : cfg.governing sensors i = none) : (t.regulate cfg floorActive sensors dt o).1 i = 0 := by
  simp [regulate, regulateOne, hinvalid]

/-- A heater without a valid reading is requested nothing, unless a duty override is open-loop, the
heaters are on and it is not latched. -/
theorem computeRequestedDuty_of_invalid {cfg : HeaterConfig} (t : ThermalController n)
    (phase : MissionPhase) {sensors : SensorSnapshot} (dt : ℚ) {o : ControlOverrides n} {i : Fin n}
    (hinvalid : cfg.governing sensors i = none)
    (hopen : o.benchOpenLoopHeaters = true → o.heatersOff = false → t.channelLatched i = false →
      overrideDuty o (fun _ => 0) i ≤ 0) :
    (t.computeRequestedDuty cfg phase sensors dt o).1 i ≤ 0 := by
  have hlatch : (t.monitor cfg phase sensors).channelLatched i = t.channelLatched i := by
    simp [monitor, HeaterConfig.tooHot, hinvalid]
  unfold computeRequestedDuty
  dsimp only
  split
  · exact le_rfl
  · rename_i hon
    have hon := Bool.eq_false_of_not_eq_true hon
    split
    · refine enforce_of_invalid hinvalid fun hflag hfree => ?_
      have hduty := regulate_of_invalid
        { (t.monitor cfg phase sensors).applyGains o with activeTargetsC := fun _ => none }
        (o.floorControlEnabled && phase.flying) dt o hinvalid
      have honly := @overrideDuty_congr n o o _ (fun _ => 0) i rfl rfl rfl hduty
      exact honly.trans_le (hopen hflag hon (hlatch.symm.trans hfree))
    split
    · exact le_rfl
    · exact enforce_of_invalid hinvalid fun hflag hfree => hopen hflag hon (hlatch.symm.trans hfree)

end ThermalController

/-- A tune whose temperature is not valid is over. -/
theorem PidAutoTuner.tick_of_invalid (t : PidAutoTuner) (tempC nowS : ℚ) :
    (t.tick false tempC nowS).2.active = false := by
  unfold tick
  split
  · rename_i hidle
    exact decide_eq_false hidle
  · rw [if_pos rfl]
    rfl

/-- A tune leaves a heater without a valid reading off. -/
theorem SystemController.tickTune_of_invalid {c : SystemController n} (context : TickContext n)
    {snapshot : SensorSnapshot} {requested : Fin n → ℚ} {i : Fin n}
    (hinvalid : c.config.governing snapshot i = none) (hrequested : requested i ≤ 0) :
    (c.tickTune context snapshot requested).1.requested i ≤ 0 := by
  unfold SystemController.tickTune
  dsimp only
  split
  · split
    · rename_i hactive
      by_cases hi : (i.val : ℤ) = c.tuneChannel
      · rw [← hi, Int.toNat_natCast, hinvalid] at hactive
        exact absurd (hactive.symm.trans (PidAutoTuner.tick_of_invalid _ _ _)) Bool.noConfusion
      · simp only [if_neg hi]
        exact le_rfl
    · exact hrequested
  · exact hrequested

/-- The controller with the snapshot of the tick, and whether bench mode was on with the debug arm at
some moment of it. -/
structure Feedback (n : ℕ) where
  controller : SystemController n
  snapshot : SensorSnapshot
  armed : Bool

namespace Feedback

/-- The snapshot a tick reads. -/
def snapshotAfter (s : Feedback n) : LoopEvent → SensorSnapshot
  | .regulate _ snapshot =>
    match s.controller.stage with
    | .started _ => snapshot
    | _ => s.snapshot
  | _ => s.snapshot

/-- The arm over a tick: as it is when the tick begins, and from there whenever it is given. -/
def armedAfter (s : Feedback n) (next : SystemController n) (event : LoopEvent) : Bool :=
  if s.controller.stage.isIdle then
    match event with
    | .startTick _ _ _ => next.requireDebugArm
    | _ => s.armed
  else s.armed || next.requireDebugArm

/-- One event, seen by the monitor. -/
def step (ranking : Ranking ℚ) (s : Feedback n) (event : LoopEvent) : Feedback n :=
  let next := s.controller.step ranking event
  ⟨next, s.snapshotAfter event, s.armedAfter next event⟩

/-- The process starts with no tick behind it. -/
def new (config : HeaterConfig) (power : PowerConfig ℚ) (benchMode : Bool) : Feedback n :=
  ⟨.new config power benchMode, {}, false⟩

/-- Once a tick is over, a heater has a duty only if the sensor governing it was valid in the tick's
snapshot, or bench mode was on with the debug arm during the tick. -/
def NoBlindHeat (s : Feedback n) : Prop :=
  s.controller.stage.isIdle = true → ∀ i, s.controller.duty i ≠ 0 →
    (s.controller.config.governing s.snapshot i).isSome = true ∨ s.armed = true

/-- A tick regulates a heater blindly: it began with the open-loop flag, but bench mode with the debug
arm has not been seen in it, and a direct duty is asked of a heater that is on, is not latched and has no
valid reading. -/
def blind (s : Feedback n) (i : Fin n) : LoopEvent → Bool
  | .regulate _ snapshot =>
    match s.controller.stage with
    | .started context =>
      context.overrides.benchOpenLoopHeaters && !s.armed && decide (context.mode = .run) &&
        !context.overrides.heatersOff && (s.controller.config.governing snapshot i).isNone &&
        !s.controller.thermal.channelLatched i &&
        decide (0 < ThermalController.overrideDuty context.overrides (fun _ => 0) i)
    | _ => false
  | _ => false

/-- No heater is regulated blindly. -/
def Sighted (s : Feedback n) (event : LoopEvent) : Prop := ∀ i, s.blind i event = false

/-- Unless the arm was seen, nothing is requested of a heater without a valid reading. -/
def Careful (s : Feedback n) (requested : Fin n → ℚ) : Prop :=
  s.armed = false → ∀ i : Fin n, s.controller.config.governing s.snapshot i = none → requested i ≤ 0

/-- What a tick asks for is careful, and what it has written was. -/
def StageCareful (s : Feedback n) : Stage n → Prop
  | .idle => s.Careful s.controller.duty
  | .started _ => True
  | .regulated _ _ snapshot requested => s.snapshot = snapshot ∧ s.Careful requested
  | .arbitrated _ _ result => s.Careful result.requested

/-- The invariant: the tick is careful and no duty is negative. -/
structure Inv (s : Feedback n) : Prop where
  stage : s.StageCareful s.controller.stage
  nonneg : ∀ i, 0 ≤ s.controller.duty i

/-- The process starts in the invariant. -/
theorem inv_new (config : HeaterConfig) (power : PowerConfig ℚ) (benchMode : Bool) :
    (new config power benchMode : Feedback n).Inv :=
  ⟨fun _ _ _ => le_rfl, fun _ => le_rfl⟩

/-- A request stays careful while the configuration and the snapshot stay and the arm is only given. -/
theorem Careful.mono {s t : Feedback n} {requested : Fin n → ℚ} (h : s.Careful requested)
    (hconfig : t.controller.config = s.controller.config) (hsnapshot : t.snapshot = s.snapshot)
    (harmed : t.armed = false → s.armed = false) : t.Careful requested := by
  intro hunarmed i hinvalid
  rw [hconfig, hsnapshot] at hinvalid
  exact h (harmed hunarmed) i hinvalid

/-- The arm seen in a tick stays seen. -/
theorem armedAfter_mono {s : Feedback n} {next : SystemController n} {event : LoopEvent}
    (hevent : ∀ linkLost dt now, event ≠ .startTick linkLost dt now)
    (h : s.armedAfter next event = false) : s.armed = false := by
  unfold armedAfter at h
  split at h
  · split at h
    · exact absurd rfl (hevent _ _ _)
    · exact h
  · exact (Bool.or_eq_false_iff.mp h).1

/-- A change of the controller that leaves the stage, the duties and the configuration keeps the
invariant. -/
theorem Inv.of_same {s : Feedback n} (hs : s.Inv) {c : SystemController n} {armed : Bool}
    (harmed : armed = false → s.armed = false) (hstage : c.stage = s.controller.stage)
    (hduty : c.duty = s.controller.duty) (hconfig : c.config = s.controller.config) :
    Inv ⟨c, s.snapshot, armed⟩ := by
  refine ⟨?_, ?_⟩
  · have hcareful := hs.stage
    simp only [hstage]
    cases hkind : s.controller.stage with
    | idle =>
      rw [hkind] at hcareful
      have h : s.Careful c.duty := by rw [hduty]; exact hcareful
      exact h.mono hconfig rfl harmed
    | started context => trivial
    | regulated context phase snapshot requested =>
      rw [hkind] at hcareful
      exact ⟨hcareful.1, hcareful.2.mono hconfig rfl harmed⟩
    | arbitrated context phase result =>
      rw [hkind] at hcareful
      exact hcareful.mono hconfig rfl harmed
  · rw [hduty]
    exact hs.nonneg

/-- A tick that regulates no heater blindly asks carefully. -/
theorem careful_regulateTick {s : Feedback n} {context : TickContext n}
    (hstage : s.controller.stage = .started context) {phase : MissionPhase} {snapshot : SensorSnapshot}
    (hok : s.Sighted (.regulate phase snapshot)) {armed : Bool} (harmed : armed = false → s.armed = false) :
    Careful ⟨s.controller.regulateTick context phase snapshot, snapshot, armed⟩
      (s.controller.thermal.computeRequestedDuty s.controller.config phase snapshot context.dt
        (SystemController.effectiveControl context)).1 := by
  intro hunarmed i hinvalid
  refine ThermalController.computeRequestedDuty_of_invalid _ _ _ hinvalid fun hflag hon hfree => ?_
  have hblind := hok i
  have hunseen : s.armed = false := harmed hunarmed
  have hnone : s.controller.config.governing snapshot i = none := hinvalid
  obtain ⟨hcommanded, hrun⟩ := Bool.or_eq_false_iff.mp hon
  have hmode : context.mode = .run := not_not.mp (of_decide_eq_false hrun)
  have hopen : context.overrides.benchOpenLoopHeaters = true := hflag
  have hsmall : ThermalController.overrideDuty context.overrides (fun _ => 0) i ≤ 0 := by
    simpa [blind, hstage, hopen, hunseen, hmode, hcommanded, hnone, hfree] using hblind
  exact hsmall

/-- Arbitration stays careful: a heater test needs the arm, a tune a valid reading. -/
theorem Inv.arbitrateTick {s : Feedback n} (hs : s.Inv) {context : TickContext n} {phase : MissionPhase}
    {snapshot : SensorSnapshot} {requested : Fin n → ℚ}
    (hstage : s.controller.stage = .regulated context phase snapshot requested) (motionActive : Bool) (now : ℤ)
    {armed : Bool} (harmed : armed = false → s.armed = false ∧ s.controller.requireDebugArm = false) :
    Inv ⟨s.controller.arbitrateTick context phase snapshot requested motionActive now, s.snapshot, armed⟩ := by
  obtain ⟨hsnapshot, hrequested⟩ : s.snapshot = snapshot ∧ s.Careful requested := by
    have h := hs.stage
    rw [hstage] at h
    exact h
  unfold SystemController.arbitrateTick
  dsimp only
  split
  · rename_i htest
    refine ⟨fun hunarmed i _ => ?_, hs.nonneg⟩
    have hallowed := (Bool.and_eq_true_iff.mp htest).2
    simp [SystemController.testAllowed, SystemController.requireDebugArm] at hallowed
    have hdenied := (harmed hunarmed).2
    simp [SystemController.requireDebugArm, hallowed] at hdenied
  · refine ⟨fun hunarmed i hinvalid => ?_, hs.nonneg⟩
    have hnone : s.controller.config.governing snapshot i = none := hsnapshot ▸ hinvalid
    exact SystemController.tickTune_of_invalid context hnone (hrequested (harmed hunarmed).1 i hinvalid)

/-- What is written is careful when what was asked for is. -/
theorem Inv.outputTick {s : Feedback n} (hs : s.Inv) {context : TickContext n} {phase : MissionPhase}
    {result : Arbitration n} (hstage : s.controller.stage = .arbitrated context phase result)
    (ranking : Ranking ℚ) (motionActive : Bool) {armed : Bool} (harmed : armed = false → s.armed = false) :
    Inv ⟨s.controller.outputTick ranking context phase result motionActive, s.snapshot, armed⟩ := by
  have hcareful : s.Careful result.requested := by
    have h := hs.stage
    rw [hstage] at h
    exact h
  refine ⟨fun hunarmed i hinvalid => ?_, fun i => (clamp_mem _ zero_le_one).1⟩
  exact (Monitored.output_of_nonpos (hcareful (harmed hunarmed) i hinvalid)).le

/-- Every step that regulates no heater blindly keeps the invariant. -/
theorem inv_step (ranking : Ranking ℚ) (s : Feedback n) (event : LoopEvent) (hs : s.Inv)
    (hok : s.Sighted event) : (s.step ranking event).Inv := by
  have hmono {event : LoopEvent} (next : SystemController n)
      (hevent : ∀ linkLost dt now, event ≠ .startTick linkLost dt now) :
      s.armedAfter next event = false → s.armed = false := armedAfter_mono hevent
  cases event with
  | startTick linkLost dt now =>
    cases hstage : s.controller.stage with
    | idle =>
      simp only [step, SystemController.step, snapshotAfter, hstage]
      exact ⟨trivial, hs.nonneg⟩
    | _ =>
      simp only [step, SystemController.step, snapshotAfter, hstage]
      refine hs.of_same (fun h => ?_) rfl rfl rfl
      simp only [armedAfter, hstage, Stage.isIdle] at h
      exact (Bool.or_eq_false_iff.mp h).1
  | regulate phase snapshot =>
    cases hstage : s.controller.stage with
    | started context =>
      simp only [step, SystemController.step, snapshotAfter, hstage]
      exact ⟨⟨rfl, careful_regulateTick hstage hok (hmono _ (by simp))⟩, hs.nonneg⟩
    | _ =>
      simp only [step, SystemController.step, snapshotAfter, hstage]
      exact hs.of_same (hmono _ (by simp)) rfl rfl rfl
  | arbitrate motionActive now =>
    cases hstage : s.controller.stage with
    | regulated context phase snapshot requested =>
      simp only [step, SystemController.step, snapshotAfter, hstage]
      refine hs.arbitrateTick hstage motionActive now fun h => ⟨hmono _ (by simp) h, ?_⟩
      simp only [armedAfter, hstage, Stage.isIdle] at h
      have harm := (Bool.or_eq_false_iff.mp h).2
      unfold SystemController.arbitrateTick at harm
      dsimp only at harm
      split at harm <;> exact harm
    | _ =>
      simp only [step, SystemController.step, snapshotAfter, hstage]
      exact hs.of_same (hmono _ (by simp)) rfl rfl rfl
  | output motionActive =>
    cases hstage : s.controller.stage with
    | arbitrated context phase result =>
      simp only [step, SystemController.step, snapshotAfter, hstage]
      exact hs.outputTick hstage ranking motionActive (hmono _ (by simp))
    | _ =>
      simp only [step, SystemController.step, snapshotAfter, hstage]
      exact hs.of_same (hmono _ (by simp)) rfl rfl rfl
  | landedSafing =>
    cases hstage : s.controller.stage with
    | idle =>
      simp only [step, SystemController.step, snapshotAfter, hstage]
      exact hs.of_same (hmono _ (by simp)) rfl rfl rfl
    | _ =>
      simp only [step, SystemController.step, snapshotAfter, hstage]
      exact hs.of_same (hmono _ (by simp)) rfl rfl rfl
  | inhibitHeaters =>
    refine ⟨?_, fun _ => le_rfl⟩
    have hcareful := hs.stage
    simp only [step, SystemController.step, SystemController.inhibitHeatersForMotion, snapshotAfter]
    cases hstage : s.controller.stage with
    | idle => exact fun _ _ _ => le_rfl
    | started context => trivial
    | regulated context phase snapshot requested =>
      rw [hstage] at hcareful
      exact ⟨hcareful.1, hcareful.2.mono rfl rfl (@hmono .inhibitHeaters _ (by simp))⟩
    | arbitrated context phase result =>
      rw [hstage] at hcareful
      exact hcareful.mono rfl rfl (@hmono .inhibitHeaters _ (by simp))
  | receive motionHeld command =>
    simp only [step, SystemController.step, snapshotAfter]
    split
    · rename_i next _ hnext
      obtain ⟨-, rfl⟩ := Watched.receive_eq hnext
      obtain ⟨-, -, hstage, hduty, hconfig, -⟩ := Watched.enter_same s.controller command
      exact hs.of_same (hmono _ (by simp)) hstage hduty hconfig
    · exact hs.of_same (hmono _ (by simp)) rfl rfl rfl
  | carryOut now =>
    simp only [step, SystemController.step, snapshotAfter]
    split
    · exact hs.of_same (hmono _ (by simp)) rfl rfl rfl
    split
    · rename_i command _ _ next hnext
      obtain ⟨hstage, hduty, hconfig⟩ := Watched.effect_same s.controller now command
      rw [Watched.carryOut_eq hnext]
      exact hs.of_same (hmono _ (by simp)) hstage hduty hconfig
    · exact hs.of_same (hmono _ (by simp)) rfl rfl rfl

/-- In the invariant a finished tick has heated no heater blindly. -/
theorem Inv.noBlindHeat {s : Feedback n} (hs : s.Inv) : s.NoBlindHeat := by
  intro hidle i hduty
  have hcareful := hs.stage
  cases hstage : s.controller.stage with
  | idle =>
    rw [hstage] at hcareful
    by_contra hno
    rw [not_or, Bool.not_eq_true, Option.isSome_eq_false_iff, Option.isNone_iff_eq_none,
      Bool.not_eq_true] at hno
    exact hduty (le_antisymm (hcareful hno.2 i hno.1) (hs.nonneg i))
  | _ =>
    rw [hstage] at hidle
    cases hidle

/-- In every run whose ticks regulate no heater blindly, a heater has a duty only with a valid reading
in the tick's snapshot or with bench mode and the debug arm on during the tick. -/
theorem noBlindHeat_of_sighted (ranking : Ranking ℚ) (config : HeaterConfig) (power : PowerConfig ℚ)
    (benchMode : Bool) (events : List LoopEvent)
    (h : Meets (step ranking) Sighted (new config power benchMode : Feedback n) events) :
    Holds (step ranking) NoBlindHeat (new config power benchMode : Feedback n) events :=
  holds_of_meets (inv_step ranking) (fun _ => Inv.noBlindHeat) (inv_new config power benchMode) h

instance (s : Feedback n) (event : LoopEvent) : Decidable (s.Sighted event) :=
  inferInstanceAs (Decidable (∀ i, s.blind i event = false))

/-- In bench mode with the debug arm, heater 0 gets a quarter of its power although its sensor has no
valid reading; then a command comes in and another tick follows. -/
def openLoopThen (command : Command) : List LoopEvent :=
  [.receive false (.armDebug "COATHEAL_DEBUG"), .carryOut 0, .receive false .arm, .carryOut 0,
    .receive false (.setHeaterDuty (some 0) (some (1 / 4))), .carryOut 0,
    .startTick false 1 0, .regulate .boot ⟨[20], [false]⟩, .arbitrate false 0, .output false,
    .receive false command, .carryOut 0,
    .startTick false 1 0, .regulate .boot ⟨[20], [false]⟩, .arbitrate false 0, .output false]

/-- When the debug arm is withdrawn the next tick heats nothing. -/
theorem noBlindHeat_disarmDebug :
    Holds (step .stable) NoBlindHeat (new {} Monitored.flightPower true : Feedback 6)
      (openLoopThen .disarmDebug) :=
  noBlindHeat_of_sighted .stable {} Monitored.flightPower true _ (by decide +kernel)

/-- When bench mode is switched off instead, the next tick heats on. -/
theorem benchModeOff_not_noBlindHeat :
    ¬ Holds (step .stable) NoBlindHeat (new {} Monitored.flightPower true : Feedback 6)
      (openLoopThen (.setBenchMode "OFF")) := by
  intro h
  have hidle : (run (step .stable) (new {} Monitored.flightPower true : Feedback 6)
      (openLoopThen (.setBenchMode "OFF"))).controller.stage.isIdle = true := by
    decide +kernel
  have hduty : (run (step .stable) (new {} Monitored.flightPower true : Feedback 6)
      (openLoopThen (.setBenchMode "OFF"))).controller.duty 0 ≠ 0 := by
    decide +kernel
  have hblind : ¬ ((run (step .stable) (new {} Monitored.flightPower true : Feedback 6)
      (openLoopThen (.setBenchMode "OFF"))).controller.config.governing
        (run (step .stable) (new {} Monitored.flightPower true : Feedback 6)
          (openLoopThen (.setBenchMode "OFF"))).snapshot (0 : Fin 6)).isSome = true := by
    decide +kernel
  have hunarmed : ¬ (run (step .stable) (new {} Monitored.flightPower true : Feedback 6)
      (openLoopThen (.setBenchMode "OFF"))).armed = true := by
    decide +kernel
  exact (h.last hidle 0 hduty).elim hblind hunarmed

end Feedback

end Coatheal.Heater
