import Coatheal.Heater.Latch

/-!
# Quiet heaters and the power ceiling

A monitor watches the run from outside: whether a stop command was acknowledged
and no enabling command since, and whether the tick that began last began
outside RUN or after such a stop. Such a tick writes zero to every heater,
whatever the overrides, the floor, a tune or a test want, and no tick ever
writes more than the ceiling.
-/

namespace Coatheal.Heater

open Coatheal.Library

variable {n : ℕ}

/-- The commands that switch the heaters off. -/
def Command.stops : Command → Bool
  | .heatersOff | .disarm | .enterSafe | .shutdownSafe => true
  | _ => false

/-- The commands that allow heat again: a duty, a target, a test, and the two that clear. -/
def Command.enables : Command → Bool
  | .setHeaterDuty _ _ | .setAllDuty _ | .setTempTarget _ _ | .setAllTempTargets _ | .heaterTest _ _ _
  | .clearOverrides | .exitSafe => true
  | _ => false

/-- The controller with what the monitor has seen. -/
structure Watched (n : ℕ) where
  controller : SystemController n
  stopped : Bool
  outsideRun : Bool
  afterStop : Bool

namespace Watched

/-- The command that takes effect in an event, if one does. -/
def takesEffect (s : Watched n) : LoopEvent → Option Command
  | .carryOut now =>
    match s.controller.pending with
    | none => none
    | some command =>
      match s.controller.carryOut now command with
      | .ok _ => some command
      | .error _ => none
  | _ => none

/-- One event, seen by the monitor. -/
def step (ranking : Ranking ℚ) (s : Watched n) (event : LoopEvent) : Watched n :=
  let controller := s.controller.step ranking event
  match event with
  | .startTick _ _ _ =>
    if s.controller.stage.isIdle then
      ⟨controller, s.stopped, decide (s.controller.mode ≠ .run), s.stopped⟩
    else ⟨controller, s.stopped, s.outsideRun, s.afterStop⟩
  | _ =>
    match s.takesEffect event with
    | none => ⟨controller, s.stopped, s.outsideRun, s.afterStop⟩
    | some command =>
      ⟨controller, command.stops || (s.stopped && !command.enables), s.outsideRun,
        s.afterStop && !command.enables⟩

/-- The process starts with no stop acknowledged. -/
def new (config : HeaterConfig) (power : PowerConfig ℚ) (benchMode : Bool) : Watched n :=
  ⟨.new config power benchMode, false, false, false⟩

/-- The tick under way keeps the heaters off. -/
def muted (s : Watched n) : Prop := s.outsideRun = true ∨ s.afterStop = true

/-- What the tick under way was begun with leaves the heaters off. -/
def Mutes (s : Watched n) (context : TickContext n) : Prop :=
  (s.outsideRun = true → context.mode ≠ .run) ∧
    (s.afterStop = true → context.overrides.heatersOff = true ∧ s.controller.heaterTest.active = false)

/-- The tick under way asks for no heat if it is to be quiet. -/
def StageSilent (s : Watched n) : Stage n → Prop
  | .idle => s.muted → ∀ i, s.controller.duty i = 0
  | .started context => s.Mutes context
  | .regulated context _ _ requested => s.Mutes context ∧ (s.muted → ∀ i, requested i ≤ 0)
  | .arbitrated _ _ result => s.muted → ∀ i, result.requested i ≤ 0

/-- The tick under way asks for no more than the ceiling. -/
def StageBounded (ceiling : ℚ) : Stage n → Prop
  | .regulated _ _ _ requested => ∀ i, requested i ≤ ceiling
  | .arbitrated _ _ result => ∀ i, result.requested i ≤ ceiling
  | _ => True

/-- The duty of a heater test that waits to take effect respects the ceiling. -/
def PendingBounded (ceiling : ℚ) : Option Command → Prop
  | some (.heaterTest _ duty _) => duty.getD 0 ≤ ceiling
  | _ => True

/-- The invariant of a quiet run. -/
structure Inv (s : Watched n) : Prop where
  stopped : s.stopped = true →
    s.controller.overrides.heatersOff = true ∧ s.controller.heaterTest.active = false
  stage : s.StageSilent s.controller.stage

/-- The invariant of a run under the ceiling. -/
structure Bounded (s : Watched n) : Prop where
  ceiling : 0 ≤ s.controller.config.maxDuty
  stage : StageBounded s.controller.config.maxDuty s.controller.stage
  duty : ∀ i, s.controller.duty i ≤ s.controller.config.maxDuty
  test : s.controller.heaterTest.duty ≤ s.controller.config.maxDuty
  pending : PendingBounded s.controller.config.maxDuty s.controller.pending
  tuner : s.controller.pidTuner.active = true →
    s.controller.pidTuner.cfg.relayDuty ≤ s.controller.config.maxDuty

/-- A stop command switches the heaters off and ends the test. -/
theorem effect_of_stops {command : Command} (h : command.stops = true) (c : SystemController n)
    (now : ℤ) :
    (c.effect now command).overrides.heatersOff = true ∧
      (c.effect now command).heaterTest.active = false := by
  cases command <;> first | exact ⟨rfl, rfl⟩ | cases h

/-- A command that does not enable heat leaves the heaters switched off. -/
theorem effect_heatersOff {command : Command} (h : command.enables = false) {c : SystemController n}
    (now : ℤ) (hoff : c.overrides.heatersOff = true) :
    (c.effect now command).overrides.heatersOff = true := by
  cases command <;> first | exact hoff | rfl | cases h

/-- Nor does it start a test. -/
theorem effect_heaterTest {command : Command} (h : command.enables = false) {c : SystemController n}
    (now : ℤ) (htest : c.heaterTest.active = false) :
    (c.effect now command).heaterTest.active = false := by
  cases command <;> first | exact htest | rfl | cases h

/-- What a command that takes effect leaves is its effect. -/
theorem carryOut_eq {c d : SystemController n} {now : ℤ} {command : Command}
    (h : c.carryOut now command = .ok d) : d = c.effect now command := by
  unfold SystemController.carryOut at h
  cases hcheck : c.checkLocked command with
  | error text =>
    rw [hcheck] at h
    cases h
  | ok _ =>
    rw [hcheck] at h
    cases h
    rfl

/-- A command that comes in changes neither the overrides nor the test. -/
theorem receive_eq {c d : SystemController n} {motionHeld : Bool} {command : Command}
    (h : c.receive motionHeld command = .ok d) :
    c.check motionHeld command = .ok () ∧ d = { c.enter command with pending := some command } := by
  unfold SystemController.receive at h
  cases hcheck : c.check motionHeld command with
  | error text =>
    rw [hcheck] at h
    cases h
  | ok _ =>
    rw [hcheck] at h
    cases h
    exact ⟨rfl, rfl⟩

/-- Entering a command leaves all but the mode, the debug arm and the bench mode. -/
theorem enter_same (c : SystemController n) (command : Command) :
    (c.enter command).overrides = c.overrides ∧ (c.enter command).heaterTest = c.heaterTest ∧
      (c.enter command).stage = c.stage ∧ (c.enter command).duty = c.duty ∧
      (c.enter command).config = c.config ∧ (c.enter command).pidTuner = c.pidTuner := by
  cases command <;> exact ⟨rfl, rfl, rfl, rfl, rfl, rfl⟩

/-- The effect of a command leaves the tick under way, the duties and the configuration. -/
theorem effect_same (c : SystemController n) (now : ℤ) (command : Command) :
    (c.effect now command).stage = c.stage ∧ (c.effect now command).duty = c.duty ∧
      (c.effect now command).config = c.config := by
  cases command <;> exact ⟨rfl, rfl, rfl⟩

/-- What a tick was begun with switches the heaters off in the control. -/
theorem Mutes.effectiveControl {s : Watched n} {context : TickContext n} (h : s.Mutes context)
    (hmuted : s.muted) : (SystemController.effectiveControl context).heatersOff = true := by
  rcases hmuted with houtside | hafter
  · exact Bool.or_eq_true_iff.mpr (Or.inr (decide_eq_true (h.1 houtside)))
  · exact Bool.or_eq_true_iff.mpr (Or.inl (h.2 hafter).1)

/-- It ends a tune. -/
theorem Mutes.abortTune {s : Watched n} {context : TickContext n} (h : s.Mutes context)
    (hmuted : s.muted) : (s.controller.abortTune context).active = false := by
  unfold SystemController.abortTune
  dsimp only
  split
  · exact PidAutoTuner.abort_active _ _
  split
  · exact PidAutoTuner.abort_active _ _
  split
  · exact PidAutoTuner.abort_active _ _
  · rename_i hrun _ hoff
    rcases hmuted with houtside | hafter
    · exact absurd (h.1 houtside) hrun
    · exact absurd (h.2 hafter).1 hoff

/-- And it keeps a heater test from taking effect. -/
theorem Mutes.testInEffect {s : Watched n} {context : TickContext n} (h : s.Mutes context)
    (hmuted : s.muted) (motionActive : Bool) (now : ℤ) :
    s.controller.testInEffect context motionActive now = false := by
  unfold SystemController.testInEffect SystemController.testAllowed
  rcases hmuted with houtside | hafter
  · simp [h.1 houtside]
  · simp [(h.2 hafter).2]

/-- A tune that has ended leaves the requested duties alone. -/
theorem tickTune_of_aborted {c : SystemController n} {context : TickContext n}
    {snapshot : SensorSnapshot} (requested : Fin n → ℚ)
    (h : (c.abortTune context).active = false) :
    (c.tickTune context snapshot requested).1.requested = requested := by
  unfold SystemController.tickTune
  dsimp only
  split
  · rw [PidAutoTuner.tick_of_not_active h, h]
    rfl
  · rfl

/-- The process starts in the invariant. -/
theorem inv_new (config : HeaterConfig) (power : PowerConfig ℚ) (benchMode : Bool) :
    (new config power benchMode : Watched n).Inv :=
  ⟨fun h => absurd h Bool.false_ne_true, fun _ _ => rfl⟩

/-- A change of the controller that leaves the overrides, the test, the stage and the duties keeps
the invariant. -/
theorem Inv.of_same {s : Watched n} (hs : s.Inv) {c : SystemController n}
    (hoverrides : c.overrides = s.controller.overrides)
    (htest : c.heaterTest = s.controller.heaterTest) (hstage : c.stage = s.controller.stage)
    (hduty : c.duty = s.controller.duty) :
    Inv ⟨c, s.stopped, s.outsideRun, s.afterStop⟩ := by
  refine ⟨?_, ?_⟩
  · rw [hoverrides, htest]
    exact hs.stopped
  · have hquiet := hs.stage
    rw [hstage]
    cases hkind : s.controller.stage with
    | idle =>
      rw [hkind] at hquiet
      simp only [StageSilent, muted] at hquiet ⊢
      rw [hduty]
      exact hquiet
    | started context =>
      rw [hkind] at hquiet
      simp only [StageSilent, Mutes] at hquiet ⊢
      rw [htest]
      exact hquiet
    | regulated context phase snapshot requested =>
      rw [hkind] at hquiet
      simp only [StageSilent, Mutes, muted] at hquiet ⊢
      rw [htest]
      exact hquiet
    | arbitrated context phase result =>
      rw [hkind] at hquiet
      exact hquiet

/-- A command that takes effect keeps the invariant. -/
theorem Inv.effect {s : Watched n} (hs : s.Inv) (now : ℤ) (command : Command) :
    Inv ⟨{ s.controller.effect now command with pending := none },
      command.stops || (s.stopped && !command.enables), s.outsideRun,
      s.afterStop && !command.enables⟩ := by
  obtain ⟨hstage, hduty, -⟩ := effect_same s.controller now command
  have hafter (h : (s.afterStop && !command.enables) = true) :
      s.afterStop = true ∧ command.enables = false := by
    simpa using h
  refine ⟨fun h => ?_, ?_⟩
  · rcases Bool.or_eq_true_iff.mp h with hstops | hkept
    · exact effect_of_stops hstops _ _
    · rw [Bool.and_eq_true_iff, Bool.not_eq_true'] at hkept
      obtain ⟨hoff, htest⟩ := hs.stopped hkept.1
      exact ⟨effect_heatersOff hkept.2 now hoff, effect_heaterTest hkept.2 now htest⟩
  · have hquiet := hs.stage
    simp only [hstage]
    cases hkind : s.controller.stage with
    | idle =>
      rw [hkind] at hquiet
      intro hmuted
      simp only [hduty]
      exact hquiet (hmuted.imp_right fun h => (hafter h).1)
    | started context =>
      rw [hkind] at hquiet
      refine ⟨hquiet.1, fun h => ?_⟩
      obtain ⟨hstop, henables⟩ := hafter h
      exact ⟨(hquiet.2 hstop).1, effect_heaterTest henables now (hquiet.2 hstop).2⟩
    | regulated context phase snapshot requested =>
      rw [hkind] at hquiet
      refine ⟨⟨hquiet.1.1, fun h => ?_⟩, fun hmuted => hquiet.2 (hmuted.imp_right fun h => (hafter h).1)⟩
      obtain ⟨hstop, henables⟩ := hafter h
      exact ⟨(hquiet.1.2 hstop).1, effect_heaterTest henables now (hquiet.1.2 hstop).2⟩
    | arbitrated context phase result =>
      rw [hkind] at hquiet
      exact fun hmuted => hquiet (hmuted.imp_right fun h => (hafter h).1)

/-- The tick that begins is quiet if it begins outside RUN or after a stop. -/
theorem Inv.startTick {s : Watched n} (hs : s.Inv) (linkLost : Bool) (dt : ℚ) (now : ℤ) :
    Inv ⟨s.controller.startTick linkLost dt now, s.stopped, decide (s.controller.mode ≠ .run),
      s.stopped⟩ :=
  ⟨hs.stopped, fun h => of_decide_eq_true h, hs.stopped⟩

/-- A quiet tick regulates to zero. -/
theorem Inv.regulateTick {s : Watched n} (hs : s.Inv) {context : TickContext n}
    (hstage : s.controller.stage = .started context) (phase : MissionPhase)
    (snapshot : SensorSnapshot) :
    Inv ⟨s.controller.regulateTick context phase snapshot, s.stopped, s.outsideRun, s.afterStop⟩ := by
  have hmutes : s.Mutes context := by
    have h := hs.stage
    rw [hstage] at h
    exact h
  refine ⟨hs.stopped, hmutes, fun hmuted i => ?_⟩
  have hoff := hmutes.effectiveControl hmuted
  simp only [ThermalController.computeRequestedDuty, if_pos hoff]
  exact le_rfl

/-- Neither a tune nor a test replaces the duties of a quiet tick. -/
theorem Inv.arbitrateTick {s : Watched n} (hs : s.Inv) {context : TickContext n}
    {phase : MissionPhase} {snapshot : SensorSnapshot} {requested : Fin n → ℚ}
    (hstage : s.controller.stage = .regulated context phase snapshot requested)
    (motionActive : Bool) (now : ℤ) :
    Inv ⟨s.controller.arbitrateTick context phase snapshot requested motionActive now, s.stopped,
      s.outsideRun, s.afterStop⟩ := by
  obtain ⟨hmutes, hzero⟩ : s.Mutes context ∧ (s.muted → ∀ i, requested i ≤ 0) := by
    have h := hs.stage
    rw [hstage] at h
    exact h
  have hinactive : ∀ {pidTuner},
      ({ s.controller with pidTuner := pidTuner } : SystemController n).testInEffect context motionActive
        now = s.controller.testInEffect context motionActive now := rfl
  unfold SystemController.arbitrateTick
  dsimp only
  rw [hinactive]
  split
  · rename_i htest
    refine ⟨hs.stopped, fun hmuted => ?_⟩
    rw [hmutes.testInEffect hmuted] at htest
    cases htest
  · refine ⟨fun h => ⟨(hs.stopped h).1, rfl⟩, fun hmuted i => ?_⟩
    rw [tickTune_of_aborted requested (hmutes.abortTune hmuted)]
    exact hzero hmuted i

/-- A quiet tick writes zero to every heater. -/
theorem Inv.outputTick {s : Watched n} (hs : s.Inv) {context : TickContext n} {phase : MissionPhase}
    {result : Arbitration n} (hstage : s.controller.stage = .arbitrated context phase result)
    (ranking : Ranking ℚ) (motionActive : Bool) :
    Inv ⟨s.controller.outputTick ranking context phase result motionActive, s.stopped, s.outsideRun,
      s.afterStop⟩ := by
  have hzero : s.muted → ∀ i, result.requested i ≤ 0 := by
    have h := hs.stage
    rw [hstage] at h
    exact h
  exact ⟨hs.stopped, fun hmuted i => Monitored.output_of_nonpos (hzero hmuted i)⟩

/-- The landed safing and a motor start only switch off. -/
theorem Inv.switchedOff {s : Watched n} (hs : s.Inv) :
    Inv ⟨s.controller.inhibitHeatersForMotion, s.stopped, s.outsideRun, s.afterStop⟩ := by
  refine ⟨hs.stopped, ?_⟩
  have hquiet := hs.stage
  unfold SystemController.inhibitHeatersForMotion
  cases hkind : s.controller.stage with
  | idle => exact fun _ _ => rfl
  | _ =>
    rw [hkind] at hquiet
    exact hquiet

/-- Every step keeps the quiet. -/
theorem inv_step (ranking : Ranking ℚ) (s : Watched n) (event : LoopEvent) (hs : s.Inv) :
    (s.step ranking event).Inv := by
  cases event with
  | startTick linkLost dt now =>
    cases hstage : s.controller.stage with
    | idle =>
      simp only [step, SystemController.step, hstage, Stage.isIdle]
      exact hs.startTick linkLost dt now
    | _ =>
      simp only [step, SystemController.step, hstage, Stage.isIdle]
      exact hs
  | regulate phase snapshot =>
    cases hstage : s.controller.stage with
    | started context =>
      simp only [step, SystemController.step, takesEffect, hstage]
      exact hs.regulateTick hstage phase snapshot
    | _ =>
      simp only [step, SystemController.step, takesEffect, hstage]
      exact hs
  | arbitrate motionActive now =>
    cases hstage : s.controller.stage with
    | regulated context phase snapshot requested =>
      simp only [step, SystemController.step, takesEffect, hstage]
      exact hs.arbitrateTick hstage motionActive now
    | _ =>
      simp only [step, SystemController.step, takesEffect, hstage]
      exact hs
  | output motionActive =>
    cases hstage : s.controller.stage with
    | arbitrated context phase result =>
      simp only [step, SystemController.step, takesEffect, hstage]
      exact hs.outputTick hstage ranking motionActive
    | _ =>
      simp only [step, SystemController.step, takesEffect, hstage]
      exact hs
  | landedSafing =>
    cases hstage : s.controller.stage with
    | idle =>
      simp only [step, SystemController.step, takesEffect, hstage]
      refine ⟨fun _ => ⟨rfl, rfl⟩, ?_⟩
      have hquiet := hs.stage
      simp only [SystemController.heatersOff, hstage] at hquiet ⊢
      exact hquiet
    | _ =>
      simp only [step, SystemController.step, takesEffect, hstage]
      exact hs
  | inhibitHeaters => exact hs.switchedOff
  | receive motionHeld command =>
    simp only [step, SystemController.step, takesEffect]
    split
    · rename_i next _ hnext
      obtain ⟨-, rfl⟩ := receive_eq hnext
      obtain ⟨hoverrides, htest, hstage, hduty, -⟩ := enter_same s.controller command
      exact hs.of_same hoverrides htest hstage hduty
    · exact hs
  | carryOut now =>
    simp only [step, SystemController.step, takesEffect]
    cases hpending : s.controller.pending with
    | none => exact hs
    | some command =>
      cases hcarried : s.controller.carryOut now command with
      | error text =>
        simp only [hcarried]
        exact hs.of_same rfl rfl rfl rfl
      | ok next =>
        simp only [hcarried]
        rw [carryOut_eq hcarried]
        exact hs.effect now command

/-- Whatever ends a tune leaves its settings. -/
theorem abortTune_cfg (c : SystemController n) (context : TickContext n) :
    (c.abortTune context).cfg = c.pidTuner.cfg := by
  unfold SystemController.abortTune
  dsimp only
  split
  · exact PidAutoTuner.abort_cfg _ _
  split
  · exact PidAutoTuner.abort_cfg _ _
  split
  · exact PidAutoTuner.abort_cfg _ _
  split
  · exact PidAutoTuner.abort_cfg _ _
  · rfl

/-- A tune under the ceiling asks for no more than it, and stays under it. -/
theorem tickTune_le {c : SystemController n} {context : TickContext n} {snapshot : SensorSnapshot}
    {requested : Fin n → ℚ} {ceiling : ℚ} (hceiling : 0 ≤ ceiling)
    (htuner : c.pidTuner.active = true → c.pidTuner.cfg.relayDuty ≤ ceiling)
    (hrequested : ∀ i, requested i ≤ ceiling) :
    (∀ i, (c.tickTune context snapshot requested).1.requested i ≤ ceiling) ∧
      ((c.tickTune context snapshot requested).2.active = true →
        (c.tickTune context snapshot requested).2.cfg.relayDuty ≤ ceiling) := by
  unfold SystemController.tickTune
  by_cases hactive : c.pidTuner.active = true
  · rw [if_pos hactive]
    obtain ⟨hcfg, hduty⟩ := PidAutoTuner.tick_spec (c.abortTune context)
      (c.config.governing snapshot c.tuneChannel.toNat).isSome
      ((c.config.governing snapshot c.tuneChannel.toNat).getD 0)
      ((context.tickStart : ℚ) * billionth)
    rw [abortTune_cfg] at hcfg hduty
    have hle : ((c.abortTune context).tick
        (c.config.governing snapshot c.tuneChannel.toNat).isSome
        ((c.config.governing snapshot c.tuneChannel.toNat).getD 0)
        ((context.tickStart : ℚ) * billionth)).1 ≤ ceiling := by
      rcases hduty with hnone | hrelay
      · rw [hnone]
        exact hceiling
      · rw [hrelay]
        exact htuner hactive
    have hkept := (congrArg TunerConfig.relayDuty hcfg).trans_le (htuner hactive)
    dsimp only
    split
    · refine ⟨fun i => ?_, fun _ => hkept⟩
      dsimp only
      split
      · exact hle
      · exact hceiling
    · exact ⟨hrequested, fun _ => hkept⟩
  · rw [if_neg hactive]
    exact ⟨hrequested, fun h => absurd h hactive⟩

/-- What is written to a heater is no more than what was requested for it, if that is a duty. -/
theorem output_le {ranking : Ranking ℚ} {c : SystemController n} {context : TickContext n}
    {phase : MissionPhase} {result : Arbitration n} {motionActive : Bool} {i : Fin n} {ceiling : ℚ}
    (hceiling : 0 ≤ ceiling) (h : result.requested i ≤ ceiling) :
    (c.outputTick ranking context phase result motionActive).duty i ≤ ceiling := by
  have hrequested : (List.ofFn result.requested).getD i 0 ≤ ceiling := by
    rw [List.getD_eq_getElem?_getD, List.getElem?_ofFn, dif_pos i.isLt]
    exact h
  have hscheduled : (c.scheduleTick ranking context phase result motionActive).1.getD i 0 ≤ ceiling := by
    unfold SystemController.scheduleTick
    dsimp only
    split
    · have hmap := @List.getD_map _ _ (List.ofFn result.requested) (0 : ℚ) i
        (fun duty => clamp duty 0 1)
      rw [clamp_of_mem le_rfl zero_le_one] at hmap
      rw [hmap]
      exact clamp_le hrequested hceiling
    · exact (HeaterScheduler.schedule_le _ _ _ _ _ _ _).trans (clamp_le hrequested hceiling)
  exact clamp_le hscheduled hceiling

/-- A heater test that comes in under the checks respects the ceiling. -/
theorem pendingBounded_of_check {c : SystemController n} {motionHeld : Bool} {command : Command}
    (h : c.check motionHeld command = .ok ()) : PendingBounded c.config.maxDuty (some command) := by
  cases command with
  | heaterTest index duty seconds =>
    unfold SystemController.check at h
    dsimp only at h
    split at h
    · cases h
    split at h
    · cases h
    split at h
    · cases h
    split at h
    · cases h
    split at h
    · split at h
      · cases h
      split at h
      · cases h
      split at h
      · cases h
      · rename_i hmax
        exact not_lt.mp hmax
    · cases h
  | _ => trivial

/-- The effect of a command that passed its checks respects the ceiling. -/
theorem effect_bounded {c : SystemController n} {ceiling : ℚ} (now : ℤ) {command : Command}
    (hmax : c.config.maxDuty = ceiling) (hpending : PendingBounded ceiling (some command))
    (htest : c.heaterTest.duty ≤ ceiling)
    (htuner : c.pidTuner.active = true → c.pidTuner.cfg.relayDuty ≤ ceiling) :
    (c.effect now command).heaterTest.duty ≤ ceiling ∧
      ((c.effect now command).pidTuner.active = true →
        (c.effect now command).pidTuner.cfg.relayDuty ≤ ceiling) := by
  cases command with
  | heaterTest index duty seconds => exact ⟨hpending, htuner⟩
  | pidTuneStart index setpoint relayDuty cycles =>
    exact ⟨htest, fun _ => (min_le_right _ _).trans_eq hmax⟩
  | pidTuneAbort =>
    refine ⟨htest, fun h => ?_⟩
    simp only [SystemController.effect, PidAutoTuner.abort_active] at h
    cases h
  | _ => exact ⟨htest, htuner⟩

/-- What is bounded does not depend on what the monitor has seen. -/
theorem Bounded.seen {s : Watched n} (hs : s.Bounded) (stopped outsideRun afterStop : Bool) :
    Bounded ⟨s.controller, stopped, outsideRun, afterStop⟩ :=
  ⟨hs.ceiling, hs.stage, hs.duty, hs.test, hs.pending, hs.tuner⟩

/-- Arbitration asks for no more than the ceiling. -/
theorem Bounded.arbitrateTick {s : Watched n} (hs : s.Bounded) {context : TickContext n}
    {phase : MissionPhase} {snapshot : SensorSnapshot} {requested : Fin n → ℚ}
    (hstage : s.controller.stage = .regulated context phase snapshot requested)
    (motionActive : Bool) (now : ℤ) :
    Bounded ⟨s.controller.arbitrateTick context phase snapshot requested motionActive now, s.stopped,
      s.outsideRun, s.afterStop⟩ := by
  have hrequested : ∀ i, requested i ≤ s.controller.config.maxDuty := by
    have h := hs.stage
    rw [hstage] at h
    exact h
  obtain ⟨htuned, htuner⟩ :=
    @tickTune_le n s.controller context snapshot requested _ hs.ceiling hs.tuner hrequested
  unfold SystemController.arbitrateTick
  dsimp only
  split
  · refine ⟨hs.ceiling, fun i => ?_, hs.duty, hs.test, hs.pending, htuner⟩
    dsimp only
    split
    · exact hs.test
    · exact hs.ceiling
  · exact ⟨hs.ceiling, htuned, hs.duty, hs.test, hs.pending, htuner⟩

/-- The tick writes no more than the ceiling. -/
theorem Bounded.outputTick {s : Watched n} (hs : s.Bounded) {context : TickContext n}
    {phase : MissionPhase} {result : Arbitration n}
    (hstage : s.controller.stage = .arbitrated context phase result) (ranking : Ranking ℚ)
    (motionActive : Bool) :
    Bounded ⟨s.controller.outputTick ranking context phase result motionActive, s.stopped,
      s.outsideRun, s.afterStop⟩ := by
  have hrequested : ∀ i, result.requested i ≤ s.controller.config.maxDuty := by
    have h := hs.stage
    rw [hstage] at h
    exact h
  have htuner (cut : Bool) (reason : String) :
      (if cut then s.controller.pidTuner.abort reason else s.controller.pidTuner).active = true →
        (if cut then s.controller.pidTuner.abort reason else s.controller.pidTuner).cfg.relayDuty ≤
          s.controller.config.maxDuty := by
    cases cut with
    | true =>
      intro h
      rw [if_pos rfl, PidAutoTuner.abort_active] at h
      cases h
    | false => exact hs.tuner
  exact ⟨hs.ceiling, trivial, fun i => output_le hs.ceiling (hrequested i), hs.test, hs.pending,
    htuner _ _⟩

/-- A command that comes in keeps the ceiling. -/
theorem Bounded.receive {s : Watched n} (hs : s.Bounded) {motionHeld : Bool} {command : Command}
    (hcheck : s.controller.check motionHeld command = .ok ()) :
    Bounded ⟨{ s.controller.enter command with pending := some command }, s.stopped, s.outsideRun,
      s.afterStop⟩ := by
  obtain ⟨-, htest, hstage, hduty, hconfig, htuner⟩ := enter_same s.controller command
  have hpending := pendingBounded_of_check hcheck
  constructor
  · rw [hconfig]
    exact hs.ceiling
  · rw [hconfig, hstage]
    exact hs.stage
  · rw [hconfig, hduty]
    exact hs.duty
  · rw [hconfig, htest]
    exact hs.test
  · rw [hconfig]
    exact hpending
  · rw [hconfig, htuner]
    exact hs.tuner

/-- A command that takes effect keeps the ceiling. -/
theorem Bounded.effect {s : Watched n} (hs : s.Bounded) {command : Command}
    (hpending : s.controller.pending = some command) (now : ℤ) :
    Bounded ⟨{ s.controller.effect now command with pending := none }, s.stopped, s.outsideRun,
      s.afterStop⟩ := by
  obtain ⟨hstage, hduty, hconfig⟩ := effect_same s.controller now command
  have hwaiting := hs.pending
  rw [hpending] at hwaiting
  obtain ⟨htest, htuner⟩ := effect_bounded now rfl hwaiting hs.test hs.tuner
  constructor
  · rw [hconfig]
    exact hs.ceiling
  · rw [hconfig, hstage]
    exact hs.stage
  · rw [hconfig, hduty]
    exact hs.duty
  · rw [hconfig]
    exact htest
  · trivial
  · rw [hconfig]
    exact htuner

end Watched

end Coatheal.Heater
