import Coatheal.Heater.ControlLoop

/-!
# The over-temperature latch

A monitor watches the run from outside: a heater is tripped from the tick a
valid reading of its sensor exceeds the limit until a tick carries out a reset.
A tripped heater is written zero by every source but one: a heater test
replaces the duties after the latch was enforced.
-/

namespace Coatheal.Heater

open Coatheal.Library

variable {n : ℕ}

/-- The controller with the heaters that are tripped. -/
structure Monitored (n : ℕ) where
  controller : SystemController n
  tripped : Fin n → Bool

namespace Monitored

/-- Every heater that trips in an event, and none after a reset is carried out. -/
def trip (s : Monitored n) : LoopEvent → Fin n → Bool
  | .startTick _ _ _ =>
    match s.controller.stage with
    | .idle => fun i => s.tripped i && !s.controller.resetControl
    | _ => s.tripped
  | .regulate _ snapshot =>
    match s.controller.stage with
    | .started _ => fun i => s.tripped i || s.controller.config.tooHot snapshot i
    | _ => s.tripped
  | _ => s.tripped

/-- One event, seen by the monitor. -/
def step (ranking : Ranking ℚ) (s : Monitored n) (event : LoopEvent) : Monitored n :=
  ⟨s.controller.step ranking event, s.trip event⟩

/-- The process starts with nothing tripped. -/
def new (config : HeaterConfig) (power : PowerConfig ℚ) (benchMode : Bool) : Monitored n :=
  ⟨.new config power benchMode, fun _ => false⟩

/-- Once a tick is over, the duty written to a tripped heater is zero. -/
def LatchDominates (s : Monitored n) : Prop :=
  s.controller.stage.isIdle = true → ∀ i, s.tripped i = true → s.controller.duty i = 0

/-- No heater test is in effect, at the point where it replaces the duties, that heats a latched
heater. -/
def NoTestOnLatched (s : Monitored n) : LoopEvent → Prop
  | .arbitrate motionActive now =>
    match s.controller.stage with
    | .regulated context _ _ _ =>
      s.controller.testInEffect context motionActive now = true →
        0 < s.controller.heaterTest.duty →
          ∀ i : Fin n, i.val = s.controller.heaterTest.heaterIndex →
            s.controller.thermal.channelLatched i = false
    | _ => True
  | _ => True

/-- The requested duties of a stage leave the latched heaters off. -/
def StageQuiet (latched : Fin n → Bool) : Stage n → Prop
  | .regulated _ _ _ requested => ∀ i, latched i = true → requested i ≤ 0
  | .arbitrated _ _ result => ∀ i, latched i = true → result.requested i ≤ 0
  | _ => True

/-- The invariant: the latch is the monitor's, requests under way respect it, and a tick that is over
or has just begun has left the tripped heaters off. -/
structure Inv (s : Monitored n) : Prop where
  latch : s.controller.thermal.channelLatched = s.tripped
  requests : StageQuiet s.tripped s.controller.stage
  quiet : (s.controller.stage = .idle ∨ ∃ context, s.controller.stage = .started context) →
    ∀ i, s.tripped i = true → s.controller.duty i = 0

/-- The process starts in the invariant. -/
theorem inv_new (config : HeaterConfig) (power : PowerConfig ℚ) (benchMode : Bool) :
    (new config power benchMode : Monitored n).Inv :=
  ⟨rfl, trivial, fun _ _ _ => rfl⟩

/-- A step that leaves the latch, the stage and the duties keeps the invariant. -/
theorem Inv.of_same {s : Monitored n} (hs : s.Inv) {c : SystemController n}
    (hlatch : c.thermal.channelLatched = s.controller.thermal.channelLatched)
    (hstage : c.stage = s.controller.stage) (hduty : c.duty = s.controller.duty) :
    Inv ⟨c, s.tripped⟩ := by
  refine ⟨hlatch.trans hs.latch, ?_, ?_⟩
  · rw [hstage]
    exact hs.requests
  · rw [hstage, hduty]
    exact hs.quiet

/-- A command changes neither the latch nor the stage nor the duties when it is received. -/
theorem receive_same {c d : SystemController n} {motionHeld : Bool} {command : Command}
    (h : c.receive motionHeld command = .ok d) :
    d.thermal = c.thermal ∧ d.stage = c.stage ∧ d.duty = c.duty := by
  unfold SystemController.receive at h
  cases hcheck : c.check motionHeld command with
  | error text =>
    rw [hcheck] at h
    cases h
  | ok _ =>
    rw [hcheck] at h
    cases h
    cases command <;> exact ⟨rfl, rfl, rfl⟩

/-- Nor when it takes effect. -/
theorem carryOut_same {c d : SystemController n} {now : ℤ} {command : Command}
    (h : c.carryOut now command = .ok d) :
    d.thermal = c.thermal ∧ d.stage = c.stage ∧ d.duty = c.duty := by
  unfold SystemController.carryOut at h
  cases hcheck : c.checkLocked command with
  | error text =>
    rw [hcheck] at h
    cases h
  | ok _ =>
    rw [hcheck] at h
    cases h
    cases command <;> exact ⟨rfl, rfl, rfl⟩

/-- A tune leaves the latched heaters off: it is ended when its own heater is latched. -/
theorem tickTune_of_latched {c : SystemController n} {context : TickContext n}
    {snapshot : SensorSnapshot} {requested : Fin n → ℚ} {i : Fin n}
    (hlatched : c.thermal.channelLatched i = true) (hrequested : requested i ≤ 0) :
    (c.tickTune context snapshot requested).1.requested i ≤ 0 := by
  unfold SystemController.tickTune
  dsimp only
  split
  · split
    · rename_i hactive
      by_cases hi : (i.val : ℤ) = c.tuneChannel
      · have hended : (c.abortTune context).active = false := by
          have hany : ((List.finRange n).any fun j =>
              decide ((j.val : ℤ) = c.tuneChannel) && c.thermal.channelLatched j) = true :=
            List.any_eq_true.mpr ⟨i, List.mem_finRange i, by simp [hi, hlatched]⟩
          unfold SystemController.abortTune
          dsimp only
          rw [hany]
          split
          · exact PidAutoTuner.abort_active _ _
          split
          · exact PidAutoTuner.abort_active _ _
          split
          · exact PidAutoTuner.abort_active _ _
          · exact PidAutoTuner.abort_active _ _
        rw [PidAutoTuner.tick_of_not_active hended, hended] at hactive
        cases hactive
      · simp only [if_neg hi]
        exact le_rfl
    · exact hrequested
  · exact hrequested

/-- Arbitration leaves the latched heaters off, unless a heater test heats one. -/
theorem arbitrate_quiet {s : Monitored n} (hs : s.Inv) {context : TickContext n}
    {phase : MissionPhase} {snapshot : SensorSnapshot} {requested : Fin n → ℚ} {motionActive : Bool}
    {now : ℤ} (hstage : s.controller.stage = .regulated context phase snapshot requested)
    (hok : s.NoTestOnLatched (.arbitrate motionActive now)) :
    StageQuiet s.tripped
      (s.controller.arbitrateTick context phase snapshot requested motionActive now).stage := by
  have hrequests : ∀ i, s.tripped i = true → requested i ≤ 0 := by
    have h := hs.requests
    rw [hstage] at h
    exact h
  simp only [NoTestOnLatched, hstage] at hok
  unfold SystemController.arbitrateTick
  dsimp only
  split
  · rename_i htest
    intro i hi
    dsimp only
    split
    · rename_i hindex
      by_contra hpos
      have hlatched := hok htest (not_le.mp hpos) i hindex
      rw [hs.latch, hi] at hlatched
      cases hlatched
    · exact le_rfl
  · intro i hi
    have hlatched : s.controller.thermal.channelLatched i = true := by
      rw [hs.latch]
      exact hi
    exact tickTune_of_latched hlatched (hrequests i hi)

/-- What is written to a heater that was requested no duty is zero. -/
theorem output_of_nonpos {ranking : Ranking ℚ} {c : SystemController n} {context : TickContext n}
    {phase : MissionPhase} {result : Arbitration n} {motionActive : Bool} {i : Fin n}
    (h : result.requested i ≤ 0) :
    (c.outputTick ranking context phase result motionActive).duty i = 0 := by
  have hrequested : (List.ofFn result.requested).getD i 0 ≤ 0 := by
    rw [List.getD_eq_getElem?_getD, List.getElem?_ofFn, dif_pos i.isLt]
    exact h
  have hscheduled : (c.scheduleTick ranking context phase result motionActive).1.getD i 0 ≤ 0 := by
    unfold SystemController.scheduleTick
    dsimp only
    split
    · have hmap := @List.getD_map _ _ (List.ofFn result.requested) (0 : ℚ) i
        (fun duty => clamp duty 0 1)
      rw [clamp_of_mem le_rfl zero_le_one] at hmap
      rw [hmap, clamp_of_le hrequested zero_le_one]
    · exact (HeaterScheduler.schedule_of_nonpos _ _ _ _ _ hrequested).le
  exact clamp_of_le hscheduled zero_le_one

/-- Every step keeps the invariant, but for a heater test on a latched heater. -/
theorem inv_step (ranking : Ranking ℚ) (s : Monitored n) (event : LoopEvent) (hs : s.Inv)
    (hok : s.NoTestOnLatched event) : (s.step ranking event).Inv := by
  cases event with
  | startTick linkLost dt now =>
    cases hstage : s.controller.stage with
    | idle =>
      simp only [step, SystemController.step, trip, hstage]
      refine ⟨?_, trivial, fun _ i hi => ?_⟩
      · funext i
        unfold SystemController.startTick
        cases hreset : s.controller.resetControl with
        | true => simp [ThermalController.reset]
        | false => simp [hs.latch]
      · have htripped : s.tripped i = true := (Bool.and_eq_true_iff.mp hi).1
        exact hs.quiet (Or.inl hstage) i htripped
    | _ =>
      simp only [step, SystemController.step, trip, hstage]
      exact hs
  | regulate phase snapshot =>
    cases hstage : s.controller.stage with
    | started context =>
      simp only [step, SystemController.step, trip, hstage]
      have hlatch : (s.controller.regulateTick context phase snapshot).thermal.channelLatched =
          fun i => s.tripped i || s.controller.config.tooHot snapshot i := by
        funext i
        rw [← hs.latch]
        exact ThermalController.computeRequestedDuty_latched _ _ _ _ _ _ i
      refine ⟨hlatch, fun i hi => ?_, ?_⟩
      · rw [← hlatch] at hi
        exact ThermalController.computeRequestedDuty_of_latched hi
      · rintro (h | ⟨_, h⟩) <;> cases h
    | _ =>
      simp only [step, SystemController.step, trip, hstage]
      exact hs
  | arbitrate motionActive now =>
    cases hstage : s.controller.stage with
    | regulated context phase snapshot requested =>
      have hquiet := arbitrate_quiet hs hstage hok
      simp only [step, SystemController.step, trip, hstage]
      have harbitrated : ∃ result,
          (s.controller.arbitrateTick context phase snapshot requested motionActive now).stage =
            .arbitrated context phase result := by
        unfold SystemController.arbitrateTick
        dsimp only
        split
        · exact ⟨_, rfl⟩
        · exact ⟨_, rfl⟩
      have hthermal :
          (s.controller.arbitrateTick context phase snapshot requested motionActive now).thermal =
            s.controller.thermal := by
        unfold SystemController.arbitrateTick
        dsimp only
        split <;> rfl
      obtain ⟨result, hresult⟩ := harbitrated
      refine ⟨?_, hquiet, ?_⟩
      · rw [hthermal]
        exact hs.latch
      · rw [hresult]
        rintro (h | ⟨_, h⟩) <;> cases h
    | _ =>
      simp only [step, SystemController.step, trip, hstage]
      exact hs
  | output motionActive =>
    cases hstage : s.controller.stage with
    | arbitrated context phase result =>
      have hrequests := hs.requests
      rw [hstage] at hrequests
      simp only [step, SystemController.step, trip, hstage]
      exact ⟨hs.latch, trivial, fun _ i hi => output_of_nonpos (hrequests i hi)⟩
    | _ =>
      simp only [step, SystemController.step, trip, hstage]
      exact hs
  | landedSafing =>
    cases hstage : s.controller.stage with
    | idle =>
      simp only [step, SystemController.step, trip, hstage]
      exact hs.of_same rfl rfl rfl
    | _ =>
      simp only [step, SystemController.step, trip, hstage]
      exact hs
  | inhibitHeaters => exact ⟨hs.latch, hs.requests, fun _ _ _ => rfl⟩
  | receive motionHeld command =>
    simp only [step, SystemController.step, trip]
    split
    · rename_i next _ hnext
      obtain ⟨hthermal, hstage, hduty⟩ := receive_same hnext
      exact hs.of_same (by rw [hthermal]) hstage hduty
    · exact hs
  | carryOut now =>
    simp only [step, SystemController.step, trip]
    split
    · exact hs
    split
    · rename_i next hnext
      obtain ⟨hthermal, hstage, hduty⟩ := carryOut_same hnext
      exact hs.of_same (congrArg _ hthermal) hstage hduty
    · exact hs.of_same rfl rfl rfl

/-- In the invariant a finished tick has left the tripped heaters off. -/
theorem Inv.latchDominates {s : Monitored n} (hs : s.Inv) : s.LatchDominates := by
  intro hidle
  refine hs.quiet (Or.inl ?_)
  cases hstage : s.controller.stage with
  | idle => rfl
  | _ =>
    rw [hstage] at hidle
    cases hidle

/-- Without an active test there is none on a latched heater. -/
theorem noTestOnLatched_of_inactive {s : Monitored n} (h : s.controller.heaterTest.active = false)
    (event : LoopEvent) : s.NoTestOnLatched event := by
  unfold NoTestOnLatched
  split
  · split
    · intro htest
      rw [SystemController.testInEffect, h] at htest
      cases htest
    · trivial
  · trivial

/-- In every run in which no heater test heats a latched heater, every tick leaves the tripped
heaters at zero. -/
theorem latchDominates_of_noTestOnLatched (ranking : Ranking ℚ) (config : HeaterConfig)
    (power : PowerConfig ℚ) (benchMode : Bool) (events : List LoopEvent)
    (h : Meets (step ranking) NoTestOnLatched (new config power benchMode : Monitored n) events) :
    Holds (step ranking) LatchDominates (new config power benchMode : Monitored n) events :=
  holds_of_meets (inv_step ranking) (fun _ => Inv.latchDominates) (inv_new config power benchMode) h

/-- Three of the 5 W heaters at once, no energy budget. -/
def flightPower : PowerConfig ℚ := ⟨3, 15, 5, 0⟩

/-- Bench mode, armed, in RUN; heater 0 reads 90 degrees for one tick and trips. -/
def tripHeater : List LoopEvent :=
  [.receive false (.armDebug "COATHEAL_DEBUG"), .carryOut 0, .receive false .arm, .carryOut 0,
    .startTick false 1 0, .regulate .boot ⟨[90], []⟩, .arbitrate false 0, .output false]

/-- The tripped heater is commanded to a quarter of its power, and another tick follows. -/
def overrideTripped : List LoopEvent :=
  tripHeater ++ [.receive false (.setHeaterDuty (some 0) (some (1 / 4))), .carryOut 0,
    .startTick false 1 0, .regulate .boot ⟨[90], []⟩, .arbitrate false 0, .output false]

/-- The override of the tripped heater stays without effect. -/
theorem latchDominates_overrideTripped :
    Holds (step .stable) LatchDominates (new {} flightPower true : Monitored 6) overrideTripped :=
  latchDominates_of_noTestOnLatched .stable {} flightPower true overrideTripped
    ⟨trivial, trivial, trivial, trivial, trivial, trivial, noTestOnLatched_of_inactive (by decide +kernel) _,
      trivial, trivial, trivial, trivial, trivial, noTestOnLatched_of_inactive (by decide +kernel) _, trivial,
      trivial⟩

/-- The tripped heater is put to a ten-second test, and another tick follows. -/
def testTripped : List LoopEvent :=
  tripHeater ++ [.receive false (.heaterTest (some 0) (some (1 / 4)) (some 10)), .carryOut 0,
    .startTick false 1 0, .regulate .boot ⟨[90], []⟩, .arbitrate false 0, .output false]

/-- The test drives the tripped heater at a quarter of its power. -/
theorem testTripped_not_latchDominates :
    ¬ Holds (step .stable) LatchDominates (new {} flightPower true : Monitored 6) testTripped := by
  intro h
  have hidle : (run (step .stable) (new {} flightPower true : Monitored 6)
      testTripped).controller.stage.isIdle = true := by
    decide +kernel
  have htripped : (run (step .stable) (new {} flightPower true : Monitored 6)
      testTripped).tripped 0 = true := by
    decide +kernel
  have hduty : (run (step .stable) (new {} flightPower true : Monitored 6)
      testTripped).controller.duty 0 = 1 / 4 := by
    decide +kernel
  have hzero := h.last hidle 0 htripped
  rw [hduty] at hzero
  exact absurd hzero (by norm_num)

end Monitored

end Coatheal.Heater
