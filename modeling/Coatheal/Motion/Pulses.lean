import Coatheal.Motion.Operations
import Mathlib.Tactic.Ring

/-!
# The pulses of one turn

What the pulse loop and a tick can do to a channel, said once for every driver:
how far the motor goes, what the driver was asked on the way, and whether the
channel goes on with its leg, ends it, or is halted by a safety stop. An observer
of the driver may write down the steps it takes.
-/

set_option linter.unusedSectionVars false

namespace Coatheal.Motion

open Coatheal.Library

variable {ι K δ : Type*} [DecidableEq ι] [Field K] [LinearOrder K] [FloorRing K]

/-- Two states of a channel that differ in its driver, its lock, its position, and what is known of step
losses only. -/
structure SameSetting (c after : StepperChannel K δ) : Prop where
  cfg : after.cfg = c.cfg
  target : after.target = c.target
  stepHz : after.stepHz = c.stepHz
  currentStepHz : after.currentStepHz = c.currentStepHz
  microstep : after.microstep = c.microstep
  moving : after.moving = c.moving
  hold : after.holdRemainingS = c.holdRemainingS
  source : after.lastSource = c.lastSource
  mode : after.mode = c.mode
  retractTarget : after.retractTarget = c.retractTarget
  retractAfterHold : after.retractAfterHold = c.retractAfterHold
  fractionalSteps : after.fractionalSteps = c.fractionalSteps

/-- A channel that a safety stop has brought to rest where its motor is. -/
structure Halted (c after : StepperChannel K δ) : Prop where
  cfg : after.cfg = c.cfg
  stepHz : after.stepHz = c.stepHz
  microstep : after.microstep = c.microstep
  target : after.target = after.position
  mode : after.mode = .idle
  moving : after.moving = false
  hold : after.holdRemainingS = 0
  retractAfterHold : after.retractAfterHold = false
  source : after.lastSource = "safety:STEPLOSS" ∨ after.lastSource = "safety:OVERTEMP"

/-- A halted channel with no rate and no part of a pulse left over. -/
structure Stopped (c after : StepperChannel K δ) : Prop extends Halted c after where
  currentStepHz : after.currentStepHz = 0
  fractionalSteps : after.fractionalSteps = 0

/-- An observer writes down the steps a driver takes, and nothing else changes what is written. -/
structure Records (hal : StepperDriver K δ) (log : δ → List Bool) : Prop where
  enable : ∀ d enable, log (hal.enable d enable).2 = log d
  stepTaken : ∀ d forward, (hal.step d forward).1 = true →
    log (hal.step d forward).2 = log d ++ [forward]
  stepRefused : ∀ d forward, (hal.step d forward).1 = false → log (hal.step d forward).2 = log d
  setMicrostep : ∀ d divisor, log (hal.setMicrostep d divisor) = log d
  activeCheck : ∀ d, log (hal.activeCheck d).2 = log d
  poll : ∀ d, log (hal.poll d).2 = log d
  takeStepLossStop : ∀ d, log (hal.takeStepLossStop d).2 = log d
  confirmTarget : ∀ d, log (hal.confirmTarget d).2 = log d
  noteStepRate : ∀ d hz steady, log (hal.noteStepRate d hz steady) = log d

/-- The steps written down for a channel; without a driver there are none. -/
def StepperChannel.written (log : δ → List Bool) (c : StepperChannel K δ) : List Bool :=
  match c.driver with
  | none => []
  | some d => log d

/-- One part of a turn took some steps in one direction, and the driver was asked for nothing else that
counts. -/
structure Stepped (hal : StepperDriver K δ) (forward : Bool) (steps : ℕ) (c after : StepperChannel K δ) :
    Prop where
  position : after.position = c.position + if forward then (steps : ℤ) else -(steps : ℤ)
  written : ∀ log, Records hal log → after.written log = c.written log ++ List.replicate steps forward

/-- Every channel has its own setting. -/
theorem SameSetting.refl (c : StepperChannel K δ) : SameSetting c c :=
  ⟨rfl, rfl, rfl, rfl, rfl, rfl, rfl, rfl, rfl, rfl, rfl, rfl⟩

/-- Settings compose. -/
theorem SameSetting.trans {c middle after : StepperChannel K δ} (hfirst : SameSetting c middle)
    (hsecond : SameSetting middle after) : SameSetting c after where
  cfg := hsecond.cfg.trans hfirst.cfg
  target := hsecond.target.trans hfirst.target
  stepHz := hsecond.stepHz.trans hfirst.stepHz
  currentStepHz := hsecond.currentStepHz.trans hfirst.currentStepHz
  microstep := hsecond.microstep.trans hfirst.microstep
  moving := hsecond.moving.trans hfirst.moving
  hold := hsecond.hold.trans hfirst.hold
  source := hsecond.source.trans hfirst.source
  mode := hsecond.mode.trans hfirst.mode
  retractTarget := hsecond.retractTarget.trans hfirst.retractTarget
  retractAfterHold := hsecond.retractAfterHold.trans hfirst.retractAfterHold
  fractionalSteps := hsecond.fractionalSteps.trans hfirst.fractionalSteps

/-- A stop of a channel with the same setting is a stop. -/
theorem SameSetting.halted {c middle after : StepperChannel K δ} (hsame : SameSetting c middle)
    (h : Halted middle after) : Halted c after :=
  ⟨h.cfg.trans hsame.cfg, h.stepHz.trans hsame.stepHz, h.microstep.trans hsame.microstep, h.target, h.mode,
    h.moving, h.hold, h.retractAfterHold, h.source⟩

/-- A stopped channel with the same setting, at the same place, is stopped. -/
theorem Halted.same {c middle after : StepperChannel K δ} (h : Halted c middle)
    (hsame : SameSetting middle after) (hposition : after.position = middle.position) : Halted c after where
  cfg := hsame.cfg.trans h.cfg
  stepHz := hsame.stepHz.trans h.stepHz
  microstep := hsame.microstep.trans h.microstep
  target := (hsame.target.trans h.target).trans hposition.symm
  mode := hsame.mode.trans h.mode
  moving := hsame.moving.trans h.moving
  hold := hsame.hold.trans h.hold
  retractAfterHold := hsame.retractAfterHold.trans h.retractAfterHold
  source := hsame.source ▸ h.source

/-- A stop of a channel with the same setting is a stop, here with nothing left over. -/
theorem SameSetting.stopped {c middle after : StepperChannel K δ} (hsame : SameSetting c middle)
    (h : Stopped middle after) : Stopped c after :=
  ⟨hsame.halted h.toHalted, h.currentStepHz, h.fractionalSteps⟩

/-- No steps were taken where position and writing are the same. -/
theorem Stepped.none {hal : StepperDriver K δ} {c after : StepperChannel K δ} (forward : Bool)
    (hposition : after.position = c.position)
    (hwritten : ∀ log, Records hal log → after.written log = c.written log) : Stepped hal forward 0 c after where
  position := by rw [hposition]; cases forward <;> simp
  written log hlog := by rw [hwritten log hlog, List.replicate_zero, List.append_nil]

/-- Where no steps were taken the motor is where it was. -/
theorem Stepped.place {hal : StepperDriver K δ} {forward : Bool} {c after : StepperChannel K δ}
    (h : Stepped hal forward 0 c after) : after.position = c.position := by
  rw [h.position]
  cases forward <;> simp

/-- The steps of two parts add up. -/
theorem Stepped.trans {hal : StepperDriver K δ} {forward : Bool} {first second : ℕ}
    {c middle after : StepperChannel K δ} (hfirst : Stepped hal forward first c middle)
    (hsecond : Stepped hal forward second middle after) : Stepped hal forward (first + second) c after where
  position := by
    rw [hsecond.position, hfirst.position]
    cases forward with
    | true =>
      simp only [if_true]
      push_cast
      ring
    | false =>
      simp only [Bool.false_eq_true, if_false]
      push_cast
      ring
  written log hlog := by
    rw [hsecond.written log hlog, hfirst.written log hlog, List.append_assoc, ← List.replicate_add]

/-- A part without steps adds none. -/
theorem Stepped.andNone {hal : StepperDriver K δ} {forward : Bool} {steps : ℕ} {c middle after : StepperChannel K δ}
    (hfirst : Stepped hal forward steps c middle) (hsecond : Stepped hal forward 0 middle after) :
    Stepped hal forward steps c after := hfirst.trans hsecond

namespace Locked

open StepperChannel

/-- Absorbing step-loss events leaves setting, place and writing. -/
theorem absorbDriverStepLoss_setting (hal : StepperDriver K δ) (c : StepperChannel K δ) (forward : Bool) :
    SameSetting c (absorbDriverStepLoss hal c).2 ∧ Stepped hal forward 0 c (absorbDriverStepLoss hal c).2 := by
  unfold absorbDriverStepLoss
  cases hdriver : c.driver with
  | none => exact ⟨.refl c, .none forward rfl fun _ _ => rfl⟩
  | some d =>
    dsimp only
    have hwritten {after : StepperChannel K δ} (hafter : after.driver = some (hal.takeStepLossStop d).2) :
        ∀ log, Records hal log → after.written log = c.written log := by
      intro log hlog
      simp only [written, hafter, hdriver]
      exact hlog.takeStepLossStop d
    split
    · exact ⟨⟨rfl, rfl, rfl, rfl, rfl, rfl, rfl, rfl, rfl, rfl, rfl, rfl⟩, .none forward rfl (hwritten rfl)⟩
    · exact ⟨⟨rfl, rfl, rfl, rfl, rfl, rfl, rfl, rfl, rfl, rfl, rfl, rfl⟩, .none forward rfl (hwritten rfl)⟩

/-- Giving the lock back leaves setting, place and writing. -/
theorem releaseLockIfHeld_setting (hal : StepperDriver K δ) (motor : ι) (s : Locked ι K δ) (forward : Bool) :
    SameSetting s.channel (releaseLockIfHeld motor s).channel ∧
      Stepped hal forward 0 s.channel (releaseLockIfHeld motor s).channel := by
  unfold releaseLockIfHeld
  split
  · exact ⟨⟨rfl, rfl, rfl, rfl, rfl, rfl, rfl, rfl, rfl, rfl, rfl, rfl⟩, .none forward rfl fun _ _ => rfl⟩
  · exact ⟨.refl _, .none forward rfl fun _ _ => rfl⟩

/-- A halted channel gives its lock back and stays halted. -/
theorem releaseLockIfHeld_halted (hal : StepperDriver K δ) (motor : ι) {c : StepperChannel K δ}
    {s : Locked ι K δ} (forward : Bool) (h : Halted c s.channel) :
    Halted c (releaseLockIfHeld motor s).channel := by
  obtain ⟨hsame, hstepped⟩ := releaseLockIfHeld_setting hal motor s forward
  exact h.same hsame hstepped.place

/-- So does a channel that is stopped. -/
theorem releaseLockIfHeld_stopped (hal : StepperDriver K δ) (motor : ι) {c : StepperChannel K δ}
    {s : Locked ι K δ} (forward : Bool) (h : Stopped c s.channel) :
    Stopped c (releaseLockIfHeld motor s).channel := by
  have hsame := (releaseLockIfHeld_setting hal motor s forward).1
  exact ⟨releaseLockIfHeld_halted hal motor forward h.toHalted, hsame.currentStepHz.trans h.currentStepHz,
    hsame.fractionalSteps.trans h.fractionalSteps⟩

/-- A move that is ended for a step loss is stopped where it is. -/
theorem abortMoveForStepLoss_stopped (hal : StepperDriver K δ) (motor : ι) (s : Locked ι K δ) (forward : Bool) :
    Stopped s.channel (abortMoveForStepLoss motor s).channel ∧
      Stepped hal forward 0 s.channel (abortMoveForStepLoss motor s).channel := by
  refine ⟨releaseLockIfHeld_stopped hal motor forward
    ⟨⟨rfl, rfl, rfl, rfl, rfl, rfl, rfl, rfl, Or.inl rfl⟩, rfl, rfl⟩, ?_⟩
  have hreleased := (releaseLockIfHeld_setting hal motor
    ⟨s.lock, { s.channel with
      target := s.channel.position
      retractTarget := s.channel.position
      moving := false
      mode := .idle
      holdRemainingS := 0
      retractAfterHold := false
      currentStepHz := 0
      fractionalSteps := 0
      lastSource := "safety:STEPLOSS" }⟩ forward).2
  exact ⟨hreleased.position, hreleased.written⟩

/-- A move whose driver refused a step is halted where it is. -/
theorem stepRefused_halted (hal : StepperDriver K δ) (motor : ι) (s : Locked ι K δ) {d : δ}
    (hdriver : s.channel.driver = some d) (counted forward : Bool) :
    Halted s.channel (stepRefused hal motor s d counted).channel ∧
      Stepped hal forward 0 s.channel (stepRefused hal motor s d counted).channel := by
  unfold stepRefused
  dsimp only
  generalize hlatched : (if counted then s.channel
    else s.channel.latchStepLoss ("motor disabled mid-move: " ++
      (if (hal.lastError d).isEmpty then "the driver refused a step" else hal.lastError d))) = latched
  have hsame : SameSetting s.channel latched ∧ latched.position = s.channel.position := by
    rw [← hlatched]
    cases counted with
    | true => exact ⟨.refl _, rfl⟩
    | false => exact ⟨⟨rfl, rfl, rfl, rfl, rfl, rfl, rfl, rfl, rfl, rfl, rfl, rfl⟩, rfl⟩
  obtain ⟨hsetting, hposition⟩ := hsame
  refine ⟨releaseLockIfHeld_halted hal motor forward
    ⟨hsetting.cfg, hsetting.stepHz, hsetting.microstep, hposition.symm, rfl, rfl, rfl, rfl, Or.inl rfl⟩, ?_⟩
  refine Stepped.andNone ?_ (releaseLockIfHeld_setting hal motor _ forward).2
  refine .none forward hposition fun log hlog => ?_
  simp only [written, hdriver]
  exact hlog.enable d false

/-- The pulse loop takes at most the steps it is left, all in its direction; the channel keeps its setting
or is halted. -/
theorem issueLoop_pulses (hal : StepperDriver K δ) (motor : ι) (forward : Bool) (left : ℕ) (issued : ℤ)
    (s : Locked ι K δ) :
    ∃ steps, steps ≤ left ∧ (issueLoop hal motor forward left issued s).1 = issued + steps ∧
      Stepped hal forward steps s.channel (issueLoop hal motor forward left issued s).2.channel ∧
      (SameSetting s.channel (issueLoop hal motor forward left issued s).2.channel ∨
        Halted s.channel (issueLoop hal motor forward left issued s).2.channel) := by
  induction left generalizing issued s with
  | zero => exact ⟨0, le_rfl, by simp [issueLoop], .none forward rfl fun _ _ => rfl, Or.inl (.refl _)⟩
  | succ left ih =>
    unfold issueLoop
    cases hdriver : s.channel.driver with
    | none => exact ⟨0, Nat.zero_le _, by simp, .none forward rfl fun _ _ => rfl, Or.inl (.refl _)⟩
    | some d =>
      dsimp only
      obtain ⟨hsame, habsorbed⟩ := absorbDriverStepLoss_setting hal
        { s.channel with driver := some (hal.step d forward).2 } forward
      have hcalled : SameSetting s.channel { s.channel with driver := some (hal.step d forward).2 } :=
        ⟨rfl, rfl, rfl, rfl, rfl, rfl, rfl, rfl, rfl, rfl, rfl, rfl⟩
      have hsame := hcalled.trans hsame
      generalize absorbDriverStepLoss hal { s.channel with driver := some (hal.step d forward).2 } =
        absorbed at habsorbed hsame ⊢
      obtain ⟨stop, absorbed⟩ := absorbed
      cases htaken : (hal.step d forward).1 with
      | true =>
        simp only [if_true]
        have hmoved : SameSetting s.channel { absorbed with
            position := absorbed.position + if forward then 1 else -1 } :=
          hsame.trans ⟨rfl, rfl, rfl, rfl, rfl, rfl, rfl, rfl, rfl, rfl, rfl, rfl⟩
        have hone : Stepped hal forward 1 s.channel { absorbed with
            position := absorbed.position + if forward then 1 else -1 } := by
          refine ⟨?_, fun log hlog => ?_⟩
          · have hplace := habsorbed.position
            dsimp only at hplace ⊢
            rw [hplace]
            cases forward <;> simp
          · refine (habsorbed.written log hlog).trans ?_
            simp only [written, hdriver, hlog.stepTaken d forward htaken, List.replicate_zero, List.append_nil]
            rfl
        split
        · obtain ⟨hstopped, hstepped⟩ := abortMoveForStepLoss_stopped hal motor
            ⟨s.lock, { absorbed with position := absorbed.position + if forward then 1 else -1 }⟩ forward
          exact ⟨1, Nat.succ_pos left, rfl, hone.trans hstepped, Or.inr (hmoved.halted hstopped.toHalted)⟩
        · obtain ⟨steps, hleft, hissued, hstepped, hends⟩ := ih (issued + 1)
            ⟨s.lock, { absorbed with position := absorbed.position + if forward then 1 else -1 }⟩
          refine ⟨1 + steps, by omega, by rw [hissued]; push_cast; ring, hone.trans hstepped, ?_⟩
          exact hends.imp hmoved.trans hmoved.halted
      | false =>
        simp only [Bool.false_eq_true, if_false]
        have hnone : Stepped hal forward 0 s.channel absorbed := by
          refine ⟨habsorbed.position, fun log hlog => (habsorbed.written log hlog).trans ?_⟩
          simp only [written, hdriver, hlog.stepRefused d forward htaken]
        split
        · obtain ⟨hstopped, hstepped⟩ := abortMoveForStepLoss_stopped hal motor ⟨s.lock, absorbed⟩ forward
          exact ⟨0, Nat.zero_le _, by simp, hnone.trans hstepped, Or.inr (hsame.halted hstopped.toHalted)⟩
        · split
          · exact ⟨0, Nat.zero_le _, by simp, hnone, Or.inl hsame⟩
          case h_2 refusing hrefusing =>
            obtain ⟨hhalted, hstepped⟩ := stepRefused_halted hal motor ⟨s.lock, absorbed⟩ hrefusing
              (decide (absorbed.stepLossEvents ≠ s.channel.stepLossEvents)) forward
            exact ⟨0, Nat.zero_le _, by simp, hnone.trans hstepped, Or.inr (hsame.halted hhalted)⟩

/-- The direction of the target. -/
def towards (c : StepperChannel K δ) : Bool := decide (c.target > c.position)

/-- Issuing pulses takes no more steps than are allowed and remain, all towards the target. -/
theorem issuePulses_pulses (hal : StepperDriver K δ) (motor : ι) (s : Locked ι K δ) (allowed : ℤ) :
    ∃ steps : ℕ, (steps : ℤ) ≤ max 0 allowed ∧ (steps : ℤ) ≤ |s.channel.target - s.channel.position| ∧
      Stepped hal (towards s.channel) steps s.channel (issuePulses hal motor s allowed).2.channel ∧
      (SameSetting s.channel (issuePulses hal motor s allowed).2.channel ∨
        Halted s.channel (issuePulses hal motor s allowed).2.channel) := by
  unfold issuePulses
  dsimp only
  split
  · exact ⟨0, le_max_left _ _, abs_nonneg _, .none _ rfl fun _ _ => rfl, Or.inl (.refl _)⟩
  split
  · exact ⟨0, le_max_left _ _, abs_nonneg _, .none _ rfl fun _ _ => rfl, Or.inl (.refl _)⟩
  obtain ⟨steps, hleft, -, hstepped, hends⟩ := issueLoop_pulses hal motor
    (decide (s.channel.target > s.channel.position))
    (min allowed |s.channel.target - s.channel.position|).toNat 0 s
  have hallowed : (steps : ℤ) ≤ max 0 (min allowed |s.channel.target - s.channel.position|) := by
    rw [max_comm, ← Int.toNat_eq_max]
    exact_mod_cast hleft
  refine ⟨steps, hallowed.trans (max_le_max le_rfl (min_le_left _ _)),
    hallowed.trans (max_le (abs_nonneg _) (min_le_right _ _)), ?_⟩
  generalize issueLoop hal motor (decide (s.channel.target > s.channel.position))
    (min allowed |s.channel.target - s.channel.position|).toNat 0 s = after at hstepped hends ⊢
  split
  · -- the target was reached, and the driver is asked to confirm it
    have hasked : SameSetting after.2.channel
        { after.2.channel with driver := after.2.channel.driver.map fun d => (hal.confirmTarget d).2 } :=
      ⟨rfl, rfl, rfl, rfl, rfl, rfl, rfl, rfl, rfl, rfl, rfl, rfl⟩
    have hnone : Stepped hal (towards s.channel) 0 after.2.channel
        { after.2.channel with driver := after.2.channel.driver.map fun d => (hal.confirmTarget d).2 } := by
      refine .none _ rfl fun log hlog => ?_
      cases hdriver : after.2.channel.driver with
      | none => simp [written, hdriver]
      | some d => simp [written, hdriver, hlog.confirmTarget d]
    obtain ⟨habsorbed, habsorbedNone⟩ := absorbDriverStepLoss_setting hal
      { after.2.channel with driver := after.2.channel.driver.map fun d => (hal.confirmTarget d).2 }
      (towards s.channel)
    have hconfirmed := (hstepped.trans hnone).trans habsorbedNone
    refine ⟨hconfirmed, hends.imp (fun hsame => (hsame.trans hasked).trans habsorbed) fun hhalted => ?_⟩
    exact hhalted.same (hasked.trans habsorbed) habsorbedNone.place
  · exact ⟨hstepped, hends⟩

/-- The ramp changes the rate and nothing else. -/
theorem updateRampSpeed_setting (sqrt : K → K) (c : StepperChannel K δ) (dt : K) (remaining : ℤ) :
    updateRampSpeed sqrt c dt remaining =
      { c with currentStepHz := (updateRampSpeed sqrt c dt remaining).currentStepHz } := by
  unfold updateRampSpeed
  split
  · rfl
  split
  · rfl
  · rfl

/-- Reporting the rate leaves setting, place and writing. -/
theorem reportStepRateToDriver_setting (hal : StepperDriver K δ) (c : StepperChannel K δ) (forward : Bool) :
    SameSetting c (reportStepRateToDriver hal c) ∧ Stepped hal forward 0 c (reportStepRateToDriver hal c) := by
  unfold reportStepRateToDriver
  cases hdriver : c.driver with
  | none => exact ⟨.refl c, .none forward rfl fun _ _ => rfl⟩
  | some d =>
    refine ⟨⟨rfl, rfl, rfl, rfl, rfl, rfl, rfl, rfl, rfl, rfl, rfl, rfl⟩, .none forward rfl fun log hlog => ?_⟩
    simp only [written, hdriver]
    exact hlog.noteStepRate d _ _

/-- The rate a tick pulses with. -/
def rampedHz (sqrt : K → K) (c : StepperChannel K δ) (dt : K) : K :=
  (updateRampSpeed sqrt c dt |c.target - c.position|).currentStepHz

/-- The pulses due in a tick, with the part of one left over from before. -/
def duePart (sqrt : K → K) (c : StepperChannel K δ) (dt : K) : K :=
  c.fractionalSteps + rampedHz sqrt c dt * (c.microstep : K) * dt

/-- Working out the due pulses sets the rate and the part left over, and nothing else. -/
theorem duePulses_setting (hal : StepperDriver K δ) (sqrt : K → K) (c : StepperChannel K δ) (dt : K)
    (forward : Bool) :
    (duePulses hal sqrt c dt).1 = max 0 (truncate (duePart sqrt c dt)) ∧
      SameSetting { c with
        currentStepHz := rampedHz sqrt c dt
        fractionalSteps := duePart sqrt c dt - (max 0 (truncate (duePart sqrt c dt)) : ℤ) }
        (duePulses hal sqrt c dt).2 ∧
      Stepped hal forward 0 c (duePulses hal sqrt c dt).2 := by
  have hramp := updateRampSpeed_setting sqrt c dt |c.target - c.position|
  obtain ⟨hsame, hstepped⟩ := reportStepRateToDriver_setting hal
    (updateRampSpeed sqrt c dt |c.target - c.position|) forward
  have hpart : (reportStepRateToDriver hal (updateRampSpeed sqrt c dt |c.target - c.position|)).fractionalSteps +
      (reportStepRateToDriver hal (updateRampSpeed sqrt c dt |c.target - c.position|)).currentStepHz *
        ((reportStepRateToDriver hal (updateRampSpeed sqrt c dt |c.target - c.position|)).microstep : K) * dt =
      duePart sqrt c dt := by
    rw [hsame.fractionalSteps, hsame.currentStepHz, hsame.microstep]
    unfold duePart rampedHz
    rw [hramp]
  unfold duePulses
  dsimp only
  rw [hpart]
  refine ⟨rfl, ?_, ?_⟩
  · have hsame : SameSetting { c with currentStepHz := rampedHz sqrt c dt }
        (reportStepRateToDriver hal (updateRampSpeed sqrt c dt |c.target - c.position|)) := by
      refine SameSetting.trans ?_ hsame
      unfold rampedHz
      rw [← hramp]
      exact .refl _
    exact ⟨hsame.cfg, hsame.target, hsame.stepHz, hsame.currentStepHz, hsame.microstep, hsame.moving,
      hsame.hold, hsame.source, hsame.mode, hsame.retractTarget, hsame.retractAfterHold, rfl⟩
  · have hplace : (updateRampSpeed sqrt c dt |c.target - c.position|).position = c.position := by rw [hramp]
    have hdriver : (updateRampSpeed sqrt c dt |c.target - c.position|).driver = c.driver := by rw [hramp]
    refine .none forward (hstepped.place.trans hplace) fun log hlog => ?_
    refine (hstepped.written log hlog).trans ?_
    rw [List.replicate_zero, List.append_nil]
    unfold written
    rw [hdriver]

/-- The channel at the end of a leg, before it gives the lock back. -/
def legEnded (c : StepperChannel K δ) : StepperChannel K δ :=
  if c.mode = .moving ∧ c.holdRemainingS > 0 then { c with mode := .holding }
  else if c.mode = .retracting then { c with mode := .idle, retractAfterHold := false }
  else { c with mode := .idle }

/-- Where the lock is given back no step is taken. -/
theorem releaseLockIfHeld_rests (hal : StepperDriver K δ) (motor : ι) (s : Locked ι K δ) (forward : Bool)
    (c : StepperChannel K δ) (hplace : c.position = s.channel.position) (hdriver : c.driver = s.channel.driver) :
    SameSetting c (releaseLockIfHeld motor ⟨s.lock, c⟩).channel ∧
      Stepped hal forward 0 s.channel (releaseLockIfHeld motor ⟨s.lock, c⟩).channel := by
  obtain ⟨hsame, hstepped⟩ := releaseLockIfHeld_setting hal motor ⟨s.lock, c⟩ forward
  refine ⟨hsame, .none forward (hstepped.place.trans hplace) fun log hlog => ?_⟩
  refine (hstepped.written log hlog).trans ?_
  simp only [List.replicate_zero, List.append_nil, written, hdriver]

/-- The end of a leg is that, with the lock given back where the motor rests. -/
theorem endLeg_setting (hal : StepperDriver K δ) (motor : ι) (s : Locked ι K δ) (forward : Bool) :
    SameSetting (legEnded s.channel) (endLeg motor s).channel ∧
      Stepped hal forward 0 s.channel (endLeg motor s).channel := by
  unfold endLeg legEnded
  split
  · exact ⟨.refl _, .none forward rfl fun _ _ => rfl⟩
  split
  · exact releaseLockIfHeld_rests hal motor s forward _ rfl rfl
  · exact releaseLockIfHeld_rests hal motor s forward _ rfl rfl

/-- The channel with its rate and the part left over set for a tick. -/
def ramped (sqrt : K → K) (c : StepperChannel K δ) (dt : K) : StepperChannel K δ :=
  { c with
    currentStepHz := rampedHz sqrt c dt
    fractionalSteps := duePart sqrt c dt - (max 0 (truncate (duePart sqrt c dt)) : ℤ) }

/-- A channel without a rate and with nothing left over, and not moving. -/
def resting (c : StepperChannel K δ) : StepperChannel K δ :=
  { c with moving := false, fractionalSteps := 0, currentStepHz := 0 }

/-- A tick on the way takes no more steps than are due and remain, all towards the target; the motor is on
its way still, or at the end of its leg, or stopped. -/
theorem tickPulses_cases (hal : StepperDriver K δ) (sqrt : K → K) (motor : ι) (s : Locked ι K δ) (dt : K) :
    ∃ steps : ℕ, (steps : ℤ) ≤ max 0 (truncate (duePart sqrt s.channel dt)) ∧
      (steps : ℤ) ≤ |s.channel.target - s.channel.position| ∧
      Stepped hal (towards s.channel) steps s.channel (tickPulses hal sqrt motor s dt).channel ∧
      ((tickPulses hal sqrt motor s dt).channel.position ≠ s.channel.target ∧
          SameSetting { ramped sqrt s.channel dt with moving := true }
            (tickPulses hal sqrt motor s dt).channel ∨
        (tickPulses hal sqrt motor s dt).channel.position = s.channel.target ∧
          SameSetting (legEnded (resting s.channel)) (tickPulses hal sqrt motor s dt).channel ∨
        Stopped s.channel (tickPulses hal sqrt motor s dt).channel) := by
  obtain ⟨hdue, hset, hnone⟩ := duePulses_setting hal sqrt s.channel dt (towards s.channel)
  have htowards : towards (duePulses hal sqrt s.channel dt).2 = towards s.channel := by
    unfold towards
    rw [hset.target, hnone.place]
  obtain ⟨steps, hallowed, hremaining, hstepped, hends⟩ := issuePulses_pulses hal motor
    ⟨s.lock, (duePulses hal sqrt s.channel dt).2⟩ (duePulses hal sqrt s.channel dt).1
  dsimp only at hremaining hstepped hends
  rw [hdue, ← max_assoc, max_self] at hallowed
  rw [hset.target, hnone.place] at hremaining
  rw [htowards] at hstepped
  have hstepped : Stepped hal (towards s.channel) steps s.channel
      (issuePulses hal motor ⟨s.lock, (duePulses hal sqrt s.channel dt).2⟩
        (duePulses hal sqrt s.channel dt).1).2.channel := by
    simpa only [zero_add] using hnone.trans hstepped
  refine ⟨steps, hallowed, hremaining, ?_⟩
  unfold tickPulses
  dsimp only
  generalize (issuePulses hal motor ⟨s.lock, (duePulses hal sqrt s.channel dt).2⟩
    (duePulses hal sqrt s.channel dt).1).2 = after at hstepped hends ⊢
  split
  case isTrue haway =>
    refine ⟨⟨hstepped.position, hstepped.written⟩, Or.inl ?_⟩
    rcases hends with hsame | hhalted
    · have hsame : SameSetting (ramped sqrt s.channel dt) after.channel := SameSetting.trans hset hsame
      have htarget : after.channel.target = s.channel.target := hsame.target
      exact ⟨htarget ▸ haway, hsame.cfg, hsame.target, hsame.stepHz, hsame.currentStepHz, hsame.microstep, rfl,
        hsame.hold, hsame.source, hsame.mode, hsame.retractTarget, hsame.retractAfterHold, hsame.fractionalSteps⟩
    · exact absurd hhalted.target.symm haway
  case isFalse hplace =>
    have hplace := not_not.mp hplace
    obtain ⟨hended, hendedNone⟩ := endLeg_setting hal motor ⟨after.lock, resting after.channel⟩ (towards s.channel)
    have hsteps : Stepped hal (towards s.channel) steps s.channel
        (endLeg motor ⟨after.lock, resting after.channel⟩).channel :=
      Stepped.andNone hstepped ⟨hendedNone.position, hendedNone.written⟩
    refine ⟨hsteps, Or.inr ?_⟩
    rcases hends with hsame | hhalted
    · have hsame : SameSetting (ramped sqrt s.channel dt) after.channel := SameSetting.trans hset hsame
      refine Or.inl ⟨(hendedNone.place.trans hplace).trans hsame.target, SameSetting.trans ?_ hended⟩
      have hmode : after.channel.mode = s.channel.mode := hsame.mode
      have hhold : after.channel.holdRemainingS = s.channel.holdRemainingS := hsame.hold
      unfold legEnded resting
      simp only [hmode, hhold]
      split
      · exact ⟨hsame.cfg, hsame.target, hsame.stepHz, rfl, hsame.microstep, rfl, rfl, hsame.source, rfl,
          hsame.retractTarget, hsame.retractAfterHold, rfl⟩
      split
      · exact ⟨hsame.cfg, hsame.target, hsame.stepHz, rfl, hsame.microstep, rfl, rfl, hsame.source, rfl,
          hsame.retractTarget, rfl, rfl⟩
      · exact ⟨hsame.cfg, hsame.target, hsame.stepHz, rfl, hsame.microstep, rfl, rfl, hsame.source, rfl,
          hsame.retractTarget, hsame.retractAfterHold, rfl⟩
    · have hidle : legEnded (resting after.channel) = resting after.channel := by
        unfold legEnded resting
        simp only [hhalted.mode, reduceCtorEq, false_and, if_false]
      rw [hidle] at hended
      refine Or.inr ⟨⟨?_, ?_, ?_, ?_, ?_, ?_, ?_, ?_, ?_⟩, hended.currentStepHz, hended.fractionalSteps⟩
      · exact (hended.cfg.trans hhalted.cfg).trans hset.cfg
      · exact (hended.stepHz.trans hhalted.stepHz).trans hset.stepHz
      · exact (hended.microstep.trans hhalted.microstep).trans hset.microstep
      · exact (hended.target.trans hhalted.target).trans hendedNone.place.symm
      · exact hended.mode.trans hhalted.mode
      · exact hended.moving
      · exact hended.hold.trans hhalted.hold
      · exact hended.retractAfterHold.trans hhalted.retractAfterHold
      · exact hhalted.source.imp hended.source.trans hended.source.trans

/-- A tick of a holding channel counts the hold down; at its end the channel goes back, or rests. -/
theorem tickHolding_cases (hal : StepperDriver K δ) (motor : ι) (s : Locked ι K δ) (dt : K) (forward : Bool) :
    Stepped hal forward 0 s.channel (tickHolding motor s dt).channel ∧
      (s.channel.holdRemainingS - dt ≤ 0 ∧
          (s.channel.retractAfterHold = true ∧ s.channel.position ≠ s.channel.retractTarget ∧
              SameSetting { s.channel with
                holdRemainingS := max 0 (s.channel.holdRemainingS - dt)
                target := s.channel.retractTarget
                mode := .retracting
                moving := true
                fractionalSteps := 0
                currentStepHz := 0 } (tickHolding motor s dt).channel ∨
            s.channel.retractAfterHold = true ∧ s.channel.position = s.channel.retractTarget ∧
              SameSetting { s.channel with
                holdRemainingS := max 0 (s.channel.holdRemainingS - dt)
                target := s.channel.retractTarget
                mode := .idle
                moving := false
                fractionalSteps := 0
                currentStepHz := 0
                retractAfterHold := false } (tickHolding motor s dt).channel ∨
            s.channel.retractAfterHold = false ∧
              SameSetting { s.channel with
                holdRemainingS := max 0 (s.channel.holdRemainingS - dt)
                mode := .idle
                moving := false
                fractionalSteps := 0
                currentStepHz := 0 } (tickHolding motor s dt).channel) ∨
        0 < s.channel.holdRemainingS - dt ∧
          SameSetting { s.channel with holdRemainingS := s.channel.holdRemainingS - dt }
            (tickHolding motor s dt).channel) := by
  unfold tickHolding
  dsimp only
  by_cases hover : s.channel.holdRemainingS - dt ≤ 0
  · rw [if_pos (max_le le_rfl hover)]
    by_cases hretract : s.channel.retractAfterHold = true
    · rw [if_pos hretract]
      by_cases hback : s.channel.position ≠ s.channel.retractTarget
      · rw [if_pos hback]
        exact ⟨.none forward rfl fun _ _ => rfl, Or.inl ⟨hover, Or.inl ⟨hretract, hback, .refl _⟩⟩⟩
      · rw [if_neg hback]
        obtain ⟨hsame, hnone⟩ := releaseLockIfHeld_rests hal motor s forward { s.channel with
          holdRemainingS := max 0 (s.channel.holdRemainingS - dt)
          target := s.channel.retractTarget
          mode := .idle
          moving := false
          fractionalSteps := 0
          currentStepHz := 0
          retractAfterHold := false } rfl rfl
        exact ⟨hnone, Or.inl ⟨hover, Or.inr (Or.inl ⟨hretract, not_not.mp hback, hsame⟩)⟩⟩
    · rw [if_neg hretract]
      obtain ⟨hsame, hnone⟩ := releaseLockIfHeld_rests hal motor s forward { s.channel with
        holdRemainingS := max 0 (s.channel.holdRemainingS - dt)
        mode := .idle
        moving := false
        fractionalSteps := 0
        currentStepHz := 0 } rfl rfl
      exact ⟨hnone, Or.inl ⟨hover, Or.inr (Or.inr ⟨Bool.eq_false_iff.mpr hretract, hsame⟩)⟩⟩
  · have hmore := not_le.mp hover
    rw [max_eq_right hmore.le, if_neg hover]
    exact ⟨.none forward rfl fun _ _ => rfl, Or.inr ⟨hmore, .refl _⟩⟩

/-- A check of the driver leaves setting, place and writing, or ends the tick with the channel stopped. -/
def Passes (hal : StepperDriver K δ) (forward : Bool) (s : Locked ι K δ) : Bool × Locked ι K δ → Prop
  | (true, after) => Stopped s.channel after.channel ∧ Stepped hal forward 0 s.channel after.channel
  | (false, after) => SameSetting s.channel after.channel ∧ Stepped hal forward 0 s.channel after.channel

/-- Supervising the driver is such a check. -/
theorem tickDriver_passes (hal : StepperDriver K δ) (motor : ι) (now : ℤ) (s : Locked ι K δ) (forward : Bool) :
    Passes hal forward s (tickDriver hal motor now s) := by
  have hsame : SameSetting s.channel s.channel ∧ Stepped hal forward 0 s.channel s.channel :=
    ⟨.refl _, .none forward rfl fun _ _ => rfl⟩
  unfold tickDriver
  cases hdriver : s.channel.driver with
  | none => exact hsame
  | some d =>
    -- the driver is asked for something that counts no step, and its losses are absorbed
    have hasked (c : StepperChannel K δ) (asked : δ) (hset : SameSetting s.channel c)
        (hplace : c.position = s.channel.position) (hc : c.driver = some asked)
        (hlog : ∀ log, Records hal log → log asked = log d) :
        SameSetting s.channel (absorbDriverStepLoss hal c).2 ∧
          Stepped hal forward 0 s.channel (absorbDriverStepLoss hal c).2 := by
      obtain ⟨habsorbed, hnone⟩ := absorbDriverStepLoss_setting hal c forward
      refine ⟨hset.trans habsorbed, Stepped.andNone ?_ hnone⟩
      refine .none forward hplace fun log h => ?_
      simp only [written, hc, hdriver, hlog log h]
    dsimp only
    split
    · split
      · split
        · split
          · refine hasked _ _ ⟨rfl, rfl, rfl, rfl, rfl, rfl, rfl, rfl, rfl, rfl, rfl, rfl⟩ rfl rfl fun log h => ?_
            rw [h.enable, h.setMicrostep, h.activeCheck]
          · refine hasked _ _ ⟨rfl, rfl, rfl, rfl, rfl, rfl, rfl, rfl, rfl, rfl, rfl, rfl⟩ rfl rfl fun log h => ?_
            rw [h.setMicrostep, h.activeCheck]
        · exact hasked _ _ ⟨rfl, rfl, rfl, rfl, rfl, rfl, rfl, rfl, rfl, rfl, rfl, rfl⟩ rfl rfl
            fun log h => h.activeCheck d
      · exact hsame
    split
    · obtain ⟨hset, hnone⟩ := hasked
        { s.channel with driver := some (hal.poll (hal.noteStepRate d 0 false)).2 } _
        ⟨rfl, rfl, rfl, rfl, rfl, rfl, rfl, rfl, rfl, rfl, rfl, rfl⟩ rfl rfl
        fun log h => by rw [h.poll, h.noteStepRate]
      split
      · obtain ⟨hstopped, hstepped⟩ := abortMoveForStepLoss_stopped hal motor ⟨s.lock, _⟩ forward
        exact ⟨hset.stopped hstopped, hnone.trans hstepped⟩
      · exact ⟨hset, hnone⟩
    · exact hsame

/-- So is a thermal stop. -/
theorem tickThermal_passes (hal : StepperDriver K δ) (motor : ι) (s : Locked ι K δ) (forward : Bool) :
    Passes hal forward s (tickThermal hal motor s) := by
  have hsame : SameSetting s.channel s.channel ∧ Stepped hal forward 0 s.channel s.channel :=
    ⟨.refl _, .none forward rfl fun _ _ => rfl⟩
  unfold tickThermal
  cases hdriver : s.channel.driver with
  | none => exact hsame
  | some d =>
    dsimp only
    split
    · refine ⟨releaseLockIfHeld_stopped hal motor forward
        ⟨⟨rfl, rfl, rfl, rfl, rfl, rfl, rfl, rfl, Or.inr rfl⟩, rfl, rfl⟩, ?_⟩
      refine Stepped.andNone ?_ (releaseLockIfHeld_setting hal motor _ forward).2
      refine .none forward rfl fun log hlog => ?_
      simp only [written, hdriver]
      exact hlog.enable d false
    · exact hsame

/-- A tick of positive length is stopped by a check of the driver, or it does what the mode asks for. -/
theorem tick_cases (hal : StepperDriver K δ) (sqrt : K → K) (motor : ι) (s : Locked ι K δ) {dt : K} (now : ℤ)
    (hdt : 0 < dt) (forward : Bool) :
    Stopped s.channel (tick hal sqrt motor s dt now).channel ∧
        Stepped hal forward 0 s.channel (tick hal sqrt motor s dt now).channel ∨
      ∃ cool : Locked ι K δ, SameSetting s.channel cool.channel ∧ Stepped hal forward 0 s.channel cool.channel ∧
        tick hal sqrt motor s dt now = tickMotion hal sqrt motor cool dt := by
  unfold tick
  rw [if_neg (not_le.mpr hdt)]
  have hdriver := tickDriver_passes hal motor now s forward
  generalize tickDriver hal motor now s = supervision at hdriver ⊢
  obtain ⟨ended, supervised⟩ := supervision
  cases ended with
  | true => exact Or.inl hdriver
  | false =>
    have hthermal := tickThermal_passes hal motor supervised forward
    dsimp only
    generalize tickThermal hal motor supervised = cooling at hthermal ⊢
    obtain ⟨ended, cool⟩ := cooling
    cases ended with
    | true => exact Or.inl ⟨hdriver.1.stopped hthermal.1, hdriver.2.trans hthermal.2⟩
    | false => exact Or.inr ⟨cool, hdriver.1.trans hthermal.1, hdriver.2.trans hthermal.2, rfl⟩

/-- A pulse does nothing, or it takes at most one step of a motor on its way, which keeps its setting apart
from the rate or is halted. -/
theorem pulse_cases (hal : StepperDriver K δ) (sqrt : K → K) (motor : ι) (s : Locked ι K δ) (elapsed : K) :
    pulse hal sqrt motor s elapsed = s ∨
      (s.channel.mode = .moving ∨ s.channel.mode = .retracting) ∧ ∃ steps : ℕ, steps ≤ 1 ∧
        Stepped hal (towards s.channel) steps s.channel (pulse hal sqrt motor s elapsed).channel ∧
        (SameSetting { s.channel with currentStepHz := (updateRampSpeed sqrt s.channel (clampElapsed elapsed)
            |s.channel.target - s.channel.position|).currentStepHz }
            (pulse hal sqrt motor s elapsed).channel ∨
          Halted s.channel (pulse hal sqrt motor s elapsed).channel) := by
  unfold pulse
  split
  · exact Or.inl rfl
  case isFalse hbusy =>
    have hmode : s.channel.mode = .moving ∨ s.channel.mode = .retracting := by
      by_contra hno
      exact hbusy (not_or.mp hno)
    split
    · exact Or.inl rfl
    · refine Or.inr ⟨hmode, ?_⟩
      have hramp := updateRampSpeed_setting sqrt s.channel (clampElapsed elapsed)
        |s.channel.target - s.channel.position|
      dsimp only
      generalize updateRampSpeed sqrt s.channel (clampElapsed elapsed)
        |s.channel.target - s.channel.position| = faster at hramp ⊢
      split
      · refine ⟨0, Nat.zero_le 1, .none _ (by rw [hramp]) fun log _ => ?_, Or.inl ?_⟩
        · rw [hramp]
          rfl
        · rw [← hramp]
          exact .refl _
      · obtain ⟨hreported, hnone⟩ := reportStepRateToDriver_setting hal faster (towards s.channel)
        have hplace : (reportStepRateToDriver hal faster).position = s.channel.position :=
          hnone.place.trans (by rw [hramp])
        have htowards : towards (reportStepRateToDriver hal faster) = towards s.channel := by
          unfold towards
          rw [hreported.target, hplace, hramp]
        obtain ⟨steps, hone, -, hstepped, hends⟩ := issuePulses_pulses hal motor
          ⟨s.lock, reportStepRateToDriver hal faster⟩ 1
        dsimp only at hstepped hends
        rw [htowards] at hstepped
        have hall := hnone.trans hstepped
        rw [zero_add] at hall
        refine ⟨steps, by simpa using hone, ⟨?_, fun log hlog => ?_⟩, ?_⟩
        · rw [hall.position, hramp]
        · rw [hall.written log hlog, hramp]
          rfl
        · rw [← hramp]
          refine hends.imp hreported.trans fun hhalted => ?_
          have hhalted := hreported.halted hhalted
          have hcfg : faster.cfg = s.channel.cfg := by rw [hramp]
          have hstepHz : faster.stepHz = s.channel.stepHz := by rw [hramp]
          have hmicrostep : faster.microstep = s.channel.microstep := by rw [hramp]
          exact ⟨hhalted.cfg.trans hcfg, hhalted.stepHz.trans hstepHz, hhalted.microstep.trans hmicrostep,
            hhalted.target, hhalted.mode, hhalted.moving, hhalted.hold, hhalted.retractAfterHold, hhalted.source⟩

/-- What the mode asks for takes no more steps than remain, all towards the target. -/
theorem tickMotion_steps (hal : StepperDriver K δ) (sqrt : K → K) (motor : ι) (s : Locked ι K δ) (dt : K) :
    ∃ steps : ℕ, (steps : ℤ) ≤ |s.channel.target - s.channel.position| ∧
      Stepped hal (towards s.channel) steps s.channel (tickMotion hal sqrt motor s dt).channel := by
  have hway : ∃ steps : ℕ, (steps : ℤ) ≤ |s.channel.target - s.channel.position| ∧
      Stepped hal (towards s.channel) steps s.channel
        (if s.channel.position = s.channel.target then
          endLeg motor ⟨s.lock, { s.channel with moving := false, currentStepHz := 0 }⟩
          else if s.channel.cfg.usePulseThread then ⟨s.lock, { s.channel with moving := true }⟩
          else tickPulses hal sqrt motor s dt).channel := by
    split
    · obtain ⟨-, hnone⟩ := endLeg_setting hal motor
        ⟨s.lock, { s.channel with moving := false, currentStepHz := 0 }⟩ (towards s.channel)
      exact ⟨0, abs_nonneg _, hnone.position, hnone.written⟩
    split
    · exact ⟨0, abs_nonneg _, .none _ rfl fun _ _ => rfl⟩
    · obtain ⟨steps, -, hremaining, hstepped, -⟩ := tickPulses_cases hal sqrt motor s dt
      exact ⟨steps, hremaining, hstepped⟩
  unfold tickMotion
  split
  · exact ⟨0, abs_nonneg _, (tickHolding_cases hal motor s dt (towards s.channel)).1⟩
  · exact ⟨0, abs_nonneg _, .none _ rfl fun _ _ => rfl⟩
  · exact hway
  · exact hway

/-- A tick takes no more steps than remain, all towards the target. -/
theorem tick_steps (hal : StepperDriver K δ) (sqrt : K → K) (motor : ι) (s : Locked ι K δ) (dt : K) (now : ℤ) :
    ∃ steps : ℕ, (steps : ℤ) ≤ |s.channel.target - s.channel.position| ∧
      Stepped hal (towards s.channel) steps s.channel (tick hal sqrt motor s dt now).channel := by
  by_cases hdt : 0 < dt
  · obtain ⟨-, hnone⟩ | ⟨cool, hsame, hnone, htick⟩ :=
      tick_cases hal sqrt motor s now hdt (towards s.channel)
    · exact ⟨0, abs_nonneg _, hnone⟩
    · rw [htick]
      obtain ⟨steps, hremaining, hstepped⟩ := tickMotion_steps hal sqrt motor cool dt
      have htowards : towards cool.channel = towards s.channel := by
        unfold towards
        rw [hsame.target, hnone.place]
      rw [hsame.target, hnone.place] at hremaining
      rw [htowards] at hstepped
      have hall := hnone.trans hstepped
      rw [zero_add] at hall
      exact ⟨steps, hremaining, hall⟩
  · have hidle : tick hal sqrt motor s dt now = s := by
      unfold tick
      rw [if_pos (not_lt.mp hdt)]
    rw [hidle]
    exact ⟨0, abs_nonneg _, .none _ rfl fun _ _ => rfl⟩

end Locked

end Coatheal.Motion
