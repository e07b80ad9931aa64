import Coatheal.Motion.Pulses
import Coatheal.Motion.Rig

/-!
# The envelope of the pulse rate

How many pulses a series of ticks can issue, how fast their rate can rise, and
which way they go. The part of a pulse left over and the rate are carried from
tick to tick and survive the commands in between; a command that sends a motor
back while its rate is not zero makes the next pulses turn round at that rate.
-/

set_option linter.unusedSectionVars false

namespace Coatheal.Motion

open Coatheal.Library

variable {ι K δ : Type*} [DecidableEq ι] [Field K] [LinearOrder K] [FloorRing K]

/-- What the loader makes sure of, for a channel without a pulse thread. -/
structure ChannelConfig.Paced (cfg : ChannelConfig K) : Prop where
  maxStepHz : 0 < cfg.maxStepHz
  accel : 0 < cfg.accelStepsPerS2
  thread : cfg.usePulseThread = false

/-- What an onlooker has seen of a motor: the rate of its last tick on the way, and the direction of its last
pulses, until the rate is zero. -/
structure RateWatch (K : Type*) where
  lastHz : K
  heading : Option Bool

namespace StepperChannel

/-- The motor is on its way. -/
def OnWay (c : StepperChannel K δ) : Prop := (c.mode = .moving ∨ c.mode = .retracting) ∧ c.position ≠ c.target

/-- Whether a motor is on its way can be decided. -/
instance (c : StepperChannel K δ) : Decidable c.OnWay := inferInstanceAs (Decidable ((_ ∨ _) ∧ _ ≠ _))

end StepperChannel

namespace RateWatch

/-- The direction is forgotten where the rate is zero. -/
def settle (w : RateWatch K) (after : StepperChannel K δ) : RateWatch K :=
  if after.currentStepHz = 0 then { w with heading := none } else w

/-- What the onlooker knows after an operation. -/
def observe (sqrt : K → K) (w : RateWatch K) (operation : Operation K δ) (c after : StepperChannel K δ) :
    RateWatch K :=
  match operation with
  | .tick dt _ =>
    settle
      { lastHz := if 0 < dt ∧ c.OnWay then Locked.rampedHz sqrt c dt else w.lastHz
        heading := if after.position ≠ c.position then some (decide (after.position > c.position)) else w.heading }
      after
  | _ => w.settle after

/-- What the onlooker relies on: the configuration and the divisor are sound, less than one pulse is left over,
the rate is in its range and no higher than it was seen, and the motor goes on in the direction seen. -/
structure Sound (w : RateWatch K) (c : StepperChannel K δ) : Prop where
  paced : c.cfg.Paced
  microstep : 0 < c.microstep
  fraction : 0 ≤ c.fractionalSteps ∧ c.fractionalSteps < 1
  rate : 0 ≤ c.currentStepHz ∧ c.currentStepHz ≤ c.cfg.maxStepHz
  seen : c.currentStepHz ≤ w.lastHz
  heading : ∀ direction, w.heading = some direction → c.position ≠ c.target → Locked.towards c = direction

end RateWatch

namespace Locked

variable [IsStrictOrderedRing K]

/-- The rate of a tick is in its range, and rises by the acceleration at most. -/
theorem rampedHz_mem (sqrt : K → K) {c : StepperChannel K δ} {dt : K} (hdt : 0 < dt) (hpaced : c.cfg.Paced)
    (hrate : 0 ≤ c.currentStepHz) :
    0 ≤ rampedHz sqrt c dt ∧ rampedHz sqrt c dt ≤ c.cfg.maxStepHz ∧
      rampedHz sqrt c dt ≤ c.currentStepHz + c.cfg.accelStepsPerS2 * dt := by
  have hgain : 0 < c.cfg.accelStepsPerS2 * dt := mul_pos hpaced.accel hdt
  have hmax := hpaced.maxStepHz
  unfold rampedHz StepperChannel.updateRampSpeed
  rw [if_neg (not_le.mpr hdt)]
  split
  · exact ⟨le_rfl, hmax.le, by dsimp only; linarith⟩
  dsimp only
  generalize min c.stepHz (sqrt (max 0 (((2 : ℤ) : K) * c.cfg.accelStepsPerS2 *
    (((|c.target - c.position| : ℤ) : K) / ((max 1 c.microstep : ℤ) : K))))) = cruise
  -- what the slope makes of the rate, before it is brought into its range
  have hslope : ∀ low : K, low ≤ c.currentStepHz + c.cfg.accelStepsPerS2 * dt →
      0 ≤ (if (if low < 0 then 0 else low) > c.cfg.maxStepHz then c.cfg.maxStepHz
          else if low < 0 then 0 else low) ∧
        (if (if low < 0 then 0 else low) > c.cfg.maxStepHz then c.cfg.maxStepHz
          else if low < 0 then 0 else low) ≤ c.cfg.maxStepHz ∧
        (if (if low < 0 then 0 else low) > c.cfg.maxStepHz then c.cfg.maxStepHz
          else if low < 0 then 0 else low) ≤ c.currentStepHz + c.cfg.accelStepsPerS2 * dt := by
    intro low hlow
    by_cases hneg : low < 0
    · simp only [if_pos hneg, if_neg (not_lt.mpr hmax.le)]
      exact ⟨le_rfl, hmax.le, by linarith⟩
    · simp only [if_neg hneg]
      split
      case isTrue hover => exact ⟨hmax.le, le_rfl, hover.le.trans hlow⟩
      case isFalse hunder => exact ⟨not_lt.mp hneg, not_lt.mp hunder, hlow⟩
  refine hslope _ ?_
  split
  · split
    case isTrue hover => exact hover.le
    case isFalse => exact le_rfl
  split
  case isTrue hfast =>
    split
    · exact hfast.le.trans (by linarith)
    · linarith
  · linarith

/-- What a tick does to the rate: it ends at zero, it is the ramp's on the way to the same target, or nothing
happens to it. -/
inductive RateAfter (sqrt : K → K) (dt : K) (steps : ℕ) (c after : StepperChannel K δ) : Prop where
  | zero (rate : after.currentStepHz = 0)
  | ramped (rate : after.currentStepHz = rampedHz sqrt c dt) (way : c.OnWay) (target : after.target = c.target)
  | same (rate : after.currentStepHz = c.currentStepHz) (way : ¬ c.OnWay) (target : after.target = c.target)
      (still : steps = 0)

/-- What a tick of positive length does: some steps towards the target, as many as there is room and allowance
for, and a rate. -/
structure TickEffect (hal : StepperDriver K δ) (sqrt : K → K) (dt : K) (steps : ℕ) (c after : StepperChannel K δ) :
    Prop where
  stepped : Stepped hal (towards c) steps c after
  remaining : (steps : ℤ) ≤ |c.target - c.position|
  cfg : after.cfg = c.cfg
  microstep : after.microstep = c.microstep
  fraction : 0 ≤ after.fractionalSteps ∧ after.fractionalSteps < 1
  budget : (steps : K) + after.fractionalSteps ≤
    c.fractionalSteps + c.cfg.maxStepHz * (c.microstep : K) * dt
  rate : RateAfter sqrt dt steps c after

/-- A channel with the same setting at the same place ramps alike. -/
theorem rampedHz_same (sqrt : K → K) {c same : StepperChannel K δ} (dt : K) (h : SameSetting c same)
    (hposition : same.position = c.position) : rampedHz sqrt same dt = rampedHz sqrt c dt := by
  unfold rampedHz StepperChannel.updateRampSpeed
  rw [h.target, hposition, h.mode, h.cfg, h.microstep, h.stepHz, h.currentStepHz]
  split
  · exact h.currentStepHz
  split
  · rfl
  · rfl

/-- A channel with the same setting at the same place is on the way alike. -/
theorem onWay_same {c same : StepperChannel K δ} (h : SameSetting c same)
    (hposition : same.position = c.position) : same.OnWay ↔ c.OnWay := by
  unfold StepperChannel.OnWay
  rw [h.mode, hposition, h.target]

/-- What a tick does after its checks is what it does. -/
theorem TickEffect.of_same {hal : StepperDriver K δ} {sqrt : K → K} {dt : K} {steps : ℕ}
    {c cool after : StepperChannel K δ} (hsame : SameSetting c cool)
    (hnone : Stepped hal (towards c) 0 c cool) (h : TickEffect hal sqrt dt steps cool after) :
    TickEffect hal sqrt dt steps c after := by
  have htowards : towards cool = towards c := by
    unfold towards
    rw [hsame.target, hnone.place]
  have hstepped := h.stepped
  rw [htowards] at hstepped
  have hall := hnone.trans hstepped
  rw [zero_add] at hall
  refine ⟨hall, ?_, h.cfg.trans hsame.cfg, h.microstep.trans hsame.microstep, h.fraction, ?_, ?_⟩
  · rw [← hsame.target, ← hnone.place]
    exact h.remaining
  · rw [← hsame.fractionalSteps, ← hsame.cfg, ← hsame.microstep]
    exact h.budget
  · cases h.rate with
    | zero rate => exact .zero rate
    | ramped rate way target =>
      exact .ramped (rate.trans (rampedHz_same sqrt dt hsame hnone.place)) ((onWay_same hsame hnone.place).mp way)
        (target.trans hsame.target)
    | same rate way target still =>
      exact .same (rate.trans hsame.currentStepHz) (fun h => way ((onWay_same hsame hnone.place).mpr h))
        (target.trans hsame.target) still

/-- A tick that leaves nothing over and takes no steps has the effect of a rest. -/
theorem TickEffect.rest {hal : StepperDriver K δ} {sqrt : K → K} {dt : K} {c after : StepperChannel K δ}
    (hdt : 0 < dt) (hpaced : c.cfg.Paced) (hmicrostep : 0 < c.microstep)
    (hfraction : 0 ≤ c.fractionalSteps ∧ c.fractionalSteps < 1) (hnone : Stepped hal (towards c) 0 c after)
    (hcfg : after.cfg = c.cfg) (hdivisor : after.microstep = c.microstep)
    (hleft : after.fractionalSteps = 0 ∨ after.fractionalSteps = c.fractionalSteps)
    (hrate : RateAfter sqrt dt 0 c after) : TickEffect hal sqrt dt 0 c after := by
  have hallowance : 0 ≤ c.cfg.maxStepHz * (c.microstep : K) * dt :=
    mul_nonneg (mul_nonneg hpaced.maxStepHz.le (by exact_mod_cast hmicrostep.le)) hdt.le
  refine ⟨hnone, abs_nonneg _, hcfg, hdivisor, ?_, ?_, hrate⟩
  · rcases hleft with hleft | hleft
    · rw [hleft]
      exact ⟨le_rfl, one_pos⟩
    · rw [hleft]
      exact hfraction
  · rw [Nat.cast_zero, zero_add]
    rcases hleft with hleft | hleft
    · rw [hleft]
      exact add_nonneg hfraction.1 hallowance
    · rw [hleft]
      exact le_add_of_nonneg_right hallowance

/-- The pulses due in a tick are within the allowance, and less than one is left over. -/
theorem duePart_mem (sqrt : K → K) {c : StepperChannel K δ} {dt : K} (hdt : 0 < dt) (hpaced : c.cfg.Paced)
    (hmicrostep : 0 < c.microstep) (hrate : 0 ≤ c.currentStepHz) (hfraction : 0 ≤ c.fractionalSteps) :
    0 ≤ duePart sqrt c dt ∧
      duePart sqrt c dt ≤ c.fractionalSteps + c.cfg.maxStepHz * (c.microstep : K) * dt := by
  obtain ⟨hlow, hhigh, -⟩ := rampedHz_mem sqrt hdt hpaced hrate
  have hdivisor : (0 : K) ≤ (c.microstep : K) := by exact_mod_cast hmicrostep.le
  unfold duePart
  refine ⟨add_nonneg hfraction (mul_nonneg (mul_nonneg hlow hdivisor) hdt.le), ?_⟩
  have hrise := mul_le_mul_of_nonneg_right (mul_le_mul_of_nonneg_right hhigh hdivisor) hdt.le
  linarith

/-- The end of a leg changes the mode and the retract, and nothing else. -/
theorem legEnded_same (c : StepperChannel K δ) :
    (legEnded c).cfg = c.cfg ∧ (legEnded c).microstep = c.microstep ∧
      (legEnded c).currentStepHz = c.currentStepHz ∧ (legEnded c).fractionalSteps = c.fractionalSteps := by
  unfold legEnded
  split
  · exact ⟨rfl, rfl, rfl, rfl⟩
  split
  · exact ⟨rfl, rfl, rfl, rfl⟩
  · exact ⟨rfl, rfl, rfl, rfl⟩

/-- A tick on the way. -/
theorem tickPulses_effect (hal : StepperDriver K δ) (sqrt : K → K) (motor : ι) (s : Locked ι K δ) {dt : K}
    (hdt : 0 < dt) (hpaced : s.channel.cfg.Paced) (hmicrostep : 0 < s.channel.microstep)
    (hfraction : 0 ≤ s.channel.fractionalSteps) (hrate : 0 ≤ s.channel.currentStepHz)
    (hway : s.channel.OnWay) :
    ∃ steps, TickEffect hal sqrt dt steps s.channel (tickPulses hal sqrt motor s dt).channel := by
  obtain ⟨hpart, hallowance⟩ := duePart_mem sqrt hdt hpaced hmicrostep hrate hfraction
  obtain ⟨hwhole, hbelow, habove⟩ := truncate_of_nonneg hpart
  obtain ⟨steps, hallowed, hremaining, hstepped, hends⟩ := tickPulses_cases hal sqrt motor s dt
  rw [max_eq_right hwhole] at hallowed
  have hsteps : (steps : K) ≤ (truncate (duePart sqrt s.channel dt) : K) := by exact_mod_cast hallowed
  refine ⟨steps, ?_⟩
  -- a leg that ends leaves nothing over
  have hended {after : StepperChannel K δ} (hstepped : Stepped hal (towards s.channel) steps s.channel after)
      (hcfg : after.cfg = s.channel.cfg) (hdivisor : after.microstep = s.channel.microstep)
      (hleft : after.fractionalSteps = 0) (hzero : after.currentStepHz = 0) :
      TickEffect hal sqrt dt steps s.channel after := by
    refine ⟨hstepped, hremaining, hcfg, hdivisor, ?_, ?_, .zero hzero⟩
    · rw [hleft]
      exact ⟨le_rfl, one_pos⟩
    · rw [hleft, add_zero]
      exact (hsteps.trans hbelow).trans hallowance
  rcases hends with ⟨-, hsame⟩ | ⟨-, hsame⟩ | hstopped
  · have hleft : (tickPulses hal sqrt motor s dt).channel.fractionalSteps =
        duePart sqrt s.channel dt - (truncate (duePart sqrt s.channel dt) : K) := by
      rw [hsame.fractionalSteps]
      dsimp only [ramped]
      rw [max_eq_right hwhole]
    refine ⟨hstepped, hremaining, hsame.cfg, hsame.microstep, ?_, ?_, .ramped hsame.currentStepHz hway hsame.target⟩
    · rw [hleft]
      exact ⟨by linarith, by linarith⟩
    · rw [hleft]
      linarith
  · obtain ⟨hcfg, hdivisor, hzero, hleft⟩ := legEnded_same (resting s.channel)
    exact hended hstepped (hsame.cfg.trans hcfg) (hsame.microstep.trans hdivisor)
      (hsame.fractionalSteps.trans hleft) (hsame.currentStepHz.trans hzero)
  · exact hended hstepped hstopped.cfg hstopped.microstep hstopped.fractionalSteps hstopped.currentStepHz

/-- What the mode asks for in a tick. -/
theorem tickMotion_effect (hal : StepperDriver K δ) (sqrt : K → K) (motor : ι) (s : Locked ι K δ) {dt : K}
    (hdt : 0 < dt) (hpaced : s.channel.cfg.Paced) (hmicrostep : 0 < s.channel.microstep)
    (hfraction : 0 ≤ s.channel.fractionalSteps ∧ s.channel.fractionalSteps < 1)
    (hrate : 0 ≤ s.channel.currentStepHz) :
    ∃ steps, TickEffect hal sqrt dt steps s.channel (tickMotion hal sqrt motor s dt).channel := by
  have hway (hmode : s.channel.mode = .moving ∨ s.channel.mode = .retracting) :
      ∃ steps, TickEffect hal sqrt dt steps s.channel
        (if s.channel.position = s.channel.target then
          endLeg motor ⟨s.lock, { s.channel with moving := false, currentStepHz := 0 }⟩
          else if s.channel.cfg.usePulseThread then ⟨s.lock, { s.channel with moving := true }⟩
          else tickPulses hal sqrt motor s dt).channel := by
    split
    · obtain ⟨hended, hnone⟩ := endLeg_setting hal motor
        ⟨s.lock, { s.channel with moving := false, currentStepHz := 0 }⟩ (towards s.channel)
      obtain ⟨hcfg, hdivisor, hzero, hleft⟩ :=
        legEnded_same { s.channel with moving := false, currentStepHz := 0 }
      exact ⟨0, .rest hdt hpaced hmicrostep hfraction ⟨hnone.position, hnone.written⟩ (hended.cfg.trans hcfg)
        (hended.microstep.trans hdivisor) (Or.inr (hended.fractionalSteps.trans hleft))
        (.zero (hended.currentStepHz.trans hzero))⟩
    case isFalse haway =>
      rw [hpaced.thread, if_neg Bool.false_ne_true]
      exact tickPulses_effect hal sqrt motor s hdt hpaced hmicrostep hfraction.1 hrate ⟨hmode, haway⟩
  unfold tickMotion
  split
  case h_1 hmode =>
    have hstays : ¬ s.channel.OnWay := by
      rintro ⟨hmoving | hretracting, -⟩
      · rw [hmode] at hmoving
        cases hmoving
      · rw [hmode] at hretracting
        cases hretracting
    obtain ⟨hnone, ⟨-, hends⟩ | ⟨-, hsame⟩⟩ := tickHolding_cases hal motor s dt (towards s.channel)
    · have hended {c after : StepperChannel K δ} (hsame : SameSetting c after) (hcfg : c.cfg = s.channel.cfg)
          (hdivisor : c.microstep = s.channel.microstep) (hleft : c.fractionalSteps = 0)
          (hzero : c.currentStepHz = 0)
          (hnone : Stepped hal (towards s.channel) 0 s.channel after) :
          TickEffect hal sqrt dt 0 s.channel after :=
        .rest hdt hpaced hmicrostep hfraction hnone (hsame.cfg.trans hcfg) (hsame.microstep.trans hdivisor)
          (Or.inl (hsame.fractionalSteps.trans hleft)) (.zero (hsame.currentStepHz.trans hzero))
      rcases hends with ⟨-, -, hsame⟩ | ⟨-, -, hsame⟩ | ⟨-, hsame⟩
      · exact ⟨0, hended hsame rfl rfl rfl rfl hnone⟩
      · exact ⟨0, hended hsame rfl rfl rfl rfl hnone⟩
      · exact ⟨0, hended hsame rfl rfl rfl rfl hnone⟩
    · exact ⟨0, .rest hdt hpaced hmicrostep hfraction hnone hsame.cfg hsame.microstep
        (Or.inr hsame.fractionalSteps) (.same hsame.currentStepHz hstays hsame.target rfl)⟩
  case h_2 hmode =>
    exact ⟨0, .rest hdt hpaced hmicrostep hfraction (.none _ rfl fun _ _ => rfl) rfl rfl (Or.inr rfl) (.zero rfl)⟩
  case h_3 hmode => exact hway (Or.inl hmode)
  case h_4 hmode => exact hway (Or.inr hmode)

/-- A tick of positive length. -/
theorem tick_effect (hal : StepperDriver K δ) (sqrt : K → K) (motor : ι) (s : Locked ι K δ) {dt : K} (now : ℤ)
    (hdt : 0 < dt) (hpaced : s.channel.cfg.Paced) (hmicrostep : 0 < s.channel.microstep)
    (hfraction : 0 ≤ s.channel.fractionalSteps ∧ s.channel.fractionalSteps < 1)
    (hrate : 0 ≤ s.channel.currentStepHz) :
    ∃ steps, TickEffect hal sqrt dt steps s.channel (tick hal sqrt motor s dt now).channel := by
  obtain ⟨hstopped, hnone⟩ | ⟨cool, hsame, hnone, htick⟩ :=
    tick_cases hal sqrt motor s now hdt (towards s.channel)
  · exact ⟨0, .rest hdt hpaced hmicrostep hfraction hnone hstopped.cfg hstopped.microstep
      (Or.inl hstopped.fractionalSteps) (.zero hstopped.currentStepHz)⟩
  · rw [htick]
    rw [← hsame.cfg] at hpaced
    rw [← hsame.microstep] at hmicrostep
    rw [← hsame.fractionalSteps] at hfraction
    rw [← hsame.currentStepHz] at hrate
    obtain ⟨steps, heffect⟩ := tickMotion_effect hal sqrt motor cool hdt hpaced hmicrostep hfraction hrate
    exact ⟨steps, heffect.of_same hsame hnone⟩

end Locked

namespace Operation

/-- The pulses an operation issues, by the position count: only ticks issue any. -/
def pulses (c after : StepperChannel K δ) : Operation K δ → ℤ
  | .tick _ _ => |after.position - c.position|
  | _ => 0

/-- The pulses the ceiling of the rate leaves room for in an operation. -/
def allowance (c : StepperChannel K δ) : Operation K δ → K
  | .tick dt _ => c.cfg.maxStepHz * (c.microstep : K) * max 0 dt
  | _ => 0

/-- The operation is a turn of the pulse thread. -/
def isPulse : Operation K δ → Bool
  | .pulse _ => true
  | _ => false

/-- A command that sends the motor on while its rate is not zero sends it the way its last pulses went. -/
def KeepsHeading (platform : Platform K δ) (motor : ι) (s : Locked ι K δ) (heading : Option Bool)
    (operation : Operation K δ) : Prop :=
  operation.isMotion = true → s.channel.currentStepHz ≠ 0 → ∀ direction, heading = some direction →
    (operation.apply platform motor s).channel.position ≠ (operation.apply platform motor s).channel.target →
    Locked.towards (operation.apply platform motor s).channel = direction

/-- Whether a command keeps the heading can be decided. -/
instance (platform : Platform K δ) (motor : ι) (s : Locked ι K δ) (heading : Option Bool)
    (operation : Operation K δ) : Decidable (operation.KeepsHeading platform motor s heading) :=
  inferInstanceAs (Decidable (_ → _ → ∀ _ : Bool, _ → _ → _))

end Operation

namespace RateWatch

variable [IsStrictOrderedRing K]

/-- The motor has moved in a tick by the steps it took, and in the direction of its target. -/
theorem moved_of_stepped {hal : StepperDriver K δ} {steps : ℕ} {c after : StepperChannel K δ}
    (h : Stepped hal (Locked.towards c) steps c after) :
    |after.position - c.position| = steps ∧
      (after.position ≠ c.position → decide (after.position > c.position) = Locked.towards c) := by
  have hplace := h.position
  cases hforward : Locked.towards c with
  | true =>
    simp only [hforward, if_true] at hplace
    refine ⟨by rw [hplace, add_sub_cancel_left, Nat.abs_cast], fun hmoved => ?_⟩
    rw [decide_eq_true_iff]
    omega
  | false =>
    simp only [hforward, Bool.false_eq_true, if_false] at hplace
    refine ⟨by rw [hplace, add_sub_cancel_left, abs_neg, Nat.abs_cast], fun hmoved => ?_⟩
    rw [decide_eq_false_iff_not]
    omega

/-- A motor that is not at its target after some steps towards it still has it on the same side. -/
theorem towards_of_stepped {hal : StepperDriver K δ} {steps : ℕ} {c after : StepperChannel K δ}
    (h : Stepped hal (Locked.towards c) steps c after) (hremaining : (steps : ℤ) ≤ |c.target - c.position|)
    (htarget : after.target = c.target) (haway : after.position ≠ after.target) :
    Locked.towards after = Locked.towards c := by
  have hplace := h.position
  rw [htarget] at haway
  unfold Locked.towards at hplace ⊢
  rw [htarget]
  by_cases hforward : c.target > c.position
  · rw [decide_eq_true hforward, if_pos rfl] at hplace
    rw [abs_of_pos (by omega)] at hremaining
    rw [decide_eq_true hforward, decide_eq_true_iff]
    omega
  · rw [decide_eq_false hforward, if_neg Bool.false_ne_true] at hplace
    rw [abs_of_nonpos (by omega)] at hremaining
    rw [decide_eq_false hforward, decide_eq_false_iff_not]
    omega

/-- A channel that keeps what the onlooker relies on, apart from the direction. -/
theorem Sound.settle {w : RateWatch K} {after : StepperChannel K δ} (hpaced : after.cfg.Paced)
    (hmicrostep : 0 < after.microstep) (hfraction : 0 ≤ after.fractionalSteps ∧ after.fractionalSteps < 1)
    (hrate : 0 ≤ after.currentStepHz ∧ after.currentStepHz ≤ after.cfg.maxStepHz)
    (hseen : after.currentStepHz ≤ w.lastHz)
    (hheading : after.currentStepHz ≠ 0 → ∀ direction, w.heading = some direction →
      after.position ≠ after.target → Locked.towards after = direction) : (w.settle after).Sound after := by
  unfold RateWatch.settle
  split
  · exact ⟨hpaced, hmicrostep, hfraction, hrate, hseen, fun _ h => by cases h⟩
  case isFalse hzero => exact ⟨hpaced, hmicrostep, hfraction, hrate, hseen, hheading hzero⟩

/-- After a tick the onlooker relies on the same. -/
theorem Sound.tick {w : RateWatch K} (platform : Platform K δ) (motor : ι) (s : Locked ι K δ) {dt : K} (now : ℤ)
    (hdt : 0 < dt) (h : w.Sound s.channel) :
    (w.observe platform.sqrt (.tick dt now) s.channel
      (s.tick platform.hal platform.sqrt motor dt now).channel).Sound
        (s.tick platform.hal platform.sqrt motor dt now).channel := by
  obtain ⟨steps, heffect⟩ := Locked.tick_effect platform.hal platform.sqrt motor s now hdt h.paced h.microstep
    h.fraction h.rate.1
  obtain ⟨hlow, hhigh, -⟩ := Locked.rampedHz_mem platform.sqrt hdt h.paced h.rate.1
  have hdirection := (moved_of_stepped heffect.stepped).2
  have hcfg := heffect.cfg
  generalize (s.tick platform.hal platform.sqrt motor dt now).channel = after at heffect hdirection hcfg ⊢
  have hpaced : after.cfg.Paced := by
    rw [hcfg]
    exact h.paced
  refine Sound.settle hpaced (heffect.microstep ▸ h.microstep) heffect.fraction ?_ ?_ fun hmoving direction hseen haway => ?_
  · rw [hcfg]
    cases heffect.rate with
    | zero rate =>
      rw [rate]
      exact ⟨le_rfl, h.paced.maxStepHz.le⟩
    | ramped rate way target =>
      rw [rate]
      exact ⟨hlow, hhigh⟩
    | same rate way target still =>
      rw [rate]
      exact h.rate
  · cases heffect.rate with
    | zero rate =>
      rw [rate]
      dsimp only
      split
      · exact hlow
      · exact h.rate.1.trans h.seen
    | ramped rate way target =>
      rw [rate, if_pos ⟨hdt, way⟩]
    | same rate way target still =>
      rw [rate, if_neg fun hboth => way hboth.2]
      exact h.seen
  · have htarget : after.target = s.channel.target := by
      cases heffect.rate with
      | zero rate => exact absurd rate hmoving
      | ramped rate way target => exact target
      | same rate way target still => exact target
    rw [towards_of_stepped heffect.stepped heffect.remaining htarget haway]
    dsimp only at hseen
    split at hseen
    case isTrue hmoved =>
      rw [← hdirection hmoved]
      exact Option.some.inj hseen
    case isFalse hstill =>
      have hstill := not_not.mp hstill
      refine h.heading direction hseen ?_
      rwa [← hstill, ← htarget]

/-- An operation that leaves the configuration, and rate and part left over unless it clears them, leaves what
the onlooker relies on, if the motor goes on the same way. -/
theorem Sound.quiet {w : RateWatch K} {c after : StepperChannel K δ} (h : w.Sound c) (hcfg : after.cfg = c.cfg)
    (hmicrostep : 0 < after.microstep)
    (hfraction : after.fractionalSteps = c.fractionalSteps ∨ after.fractionalSteps = 0)
    (hrate : after.currentStepHz = c.currentStepHz ∨ after.currentStepHz = 0)
    (hheading : after.currentStepHz ≠ 0 → ∀ direction, w.heading = some direction →
      after.position ≠ after.target → Locked.towards after = direction) : (w.settle after).Sound after := by
  refine Sound.settle (by rw [hcfg]; exact h.paced) hmicrostep ?_ ?_ ?_ hheading
  · rcases hfraction with hsame | hzero
    · rw [hsame]
      exact h.fraction
    · rw [hzero]
      exact ⟨le_rfl, one_pos⟩
  · rw [hcfg]
    rcases hrate with hsame | hzero
    · rw [hsame]
      exact h.rate
    · rw [hzero]
      exact ⟨le_rfl, h.paced.maxStepHz.le⟩
  · rcases hrate with hsame | hzero
    · rw [hsame]
      exact h.seen
    · rw [hzero]
      exact h.rate.1.trans h.seen

/-- Nor does one that leaves target and position. -/
theorem Sound.still {w : RateWatch K} {c after : StepperChannel K δ} (h : w.Sound c) (hcfg : after.cfg = c.cfg)
    (hmicrostep : after.microstep = c.microstep) (hfraction : after.fractionalSteps = c.fractionalSteps)
    (hrate : after.currentStepHz = c.currentStepHz) (htarget : after.target = c.target)
    (hposition : after.position = c.position) : (w.settle after).Sound after := by
  refine h.quiet hcfg (hmicrostep ▸ h.microstep) (Or.inl hfraction) (Or.inl hrate) fun _ direction hseen haway => ?_
  rw [htarget, hposition] at haway
  have htowards : Locked.towards after = Locked.towards c := by
    unfold Locked.towards
    rw [htarget, hposition]
  rw [htowards]
  exact h.heading direction hseen haway

/-- A change of the divisor leaves the target on the same side. -/
theorem Sound.setMicrostep {w : RateWatch K} (hal : StepperDriver K δ) {c : StepperChannel K δ} (divisor : ℤ)
    (h : w.Sound c) : (w.settle (c.setMicrostep hal divisor).2).Sound (c.setMicrostep hal divisor).2 := by
  unfold StepperChannel.setMicrostep
  split
  · exact h.still rfl rfl rfl rfl rfl rfl
  case isFalse hsupported =>
    have hdivisor : 0 < divisor := isSupportedMicrostep_pos (by simpa using hsupported)
    dsimp only
    split
    · exact h.still rfl rfl rfl rfl rfl rfl
    split
    case isTrue hscale =>
      have hfactor : (0 : K) ≤ (divisor : K) / (c.microstep : K) :=
        div_nonneg (by exact_mod_cast hdivisor.le) (by exact_mod_cast hscale.2.le)
      -- rounding keeps the order, so the target cannot change sides
      have horder {x y : ℤ} (hxy : x ≤ y) : llround ((x : K) * ((divisor : K) / (c.microstep : K))) ≤
          llround ((y : K) * ((divisor : K) / (c.microstep : K))) :=
        llround_mono (mul_le_mul_of_nonneg_right (by exact_mod_cast hxy) hfactor)
      refine h.quiet rfl hdivisor (Or.inl rfl) (Or.inl rfl) fun _ direction hseen haway => ?_
      dsimp only at haway
      have hbefore : c.position ≠ c.target := fun heq => haway (by rw [heq])
      rw [← h.heading direction hseen hbefore]
      unfold Locked.towards
      dsimp only
      by_cases hforward : c.target > c.position
      · rw [decide_eq_true hforward, decide_eq_true_iff]
        exact lt_of_le_of_ne (horder hforward.le) haway
      · rw [decide_eq_false hforward, decide_eq_false_iff_not, not_lt]
        exact horder (not_lt.mp hforward)
    · exact h.quiet rfl hdivisor (Or.inl rfl) (Or.inl rfl) fun _ => h.heading

/-- A command that starts a move sets neither the configuration nor the rate. -/
structure Untouched (c after : StepperChannel K δ) : Prop where
  cfg : after.cfg = c.cfg
  microstep : after.microstep = c.microstep
  fraction : after.fractionalSteps = c.fractionalSteps
  rate : after.currentStepHz = c.currentStepHz

/-- The common end of these commands does not either. -/
theorem untouched_startMotion (motor : ι) (s : Locked ι K δ) (needsLock : Prop) [Decidable needsLock]
    {set : StepperChannel K δ → StepperChannel K δ} (hset : ∀ c, Untouched c (set c)) :
    Untouched s.channel (s.startMotion motor needsLock set).2.channel := by
  unfold Locked.startMotion Locked.acquireLockForMotion
  split
  · by_cases hheld : s.channel.lockHeld = true
    · simp only [hheld, if_true]
      exact hset _
    · simp only [hheld, Bool.false_eq_true, if_false]
      cases s.lock.tryAcquire motor with
      | mk got taken =>
        cases got with
        | false => exact ⟨rfl, rfl, rfl, rfl⟩
        | true =>
          have hheld := hset { s.channel with lockHeld := true }
          exact ⟨hheld.cfg, hheld.microstep, hheld.fraction, hheld.rate⟩
  · exact hset _

/-- Nor does a relative move. -/
theorem untouched_moveSteps (motor : ι) (s : Locked ι K δ) (delta : ℤ) :
    Untouched s.channel (s.moveSteps motor delta).2.channel := by
  unfold Locked.moveSteps
  split
  · exact ⟨rfl, rfl, rfl, rfl⟩
  dsimp only
  split
  · exact ⟨rfl, rfl, rfl, rfl⟩
  · exact untouched_startMotion motor s _ fun c => ⟨rfl, rfl, rfl, rfl⟩

/-- Nor does a move to a position. -/
theorem untouched_moveToSteps (motor : ι) (s : Locked ι K δ) (absolute : ℤ) (hold : K) :
    Untouched s.channel (s.moveToSteps motor absolute hold).2.channel := by
  unfold Locked.moveToSteps
  split
  · exact ⟨rfl, rfl, rfl, rfl⟩
  split
  · exact ⟨rfl, rfl, rfl, rfl⟩
  split
  · exact ⟨rfl, rfl, rfl, rfl⟩
  · exact untouched_startMotion motor s _ fun c => ⟨rfl, rfl, rfl, rfl⟩

/-- Nor does another name for the source. -/
theorem Untouched.relabel {c : StepperChannel K δ} (source : String) {reply : Except String Unit × Locked ι K δ}
    (h : Untouched c reply.2.channel) : Untouched c (Locked.relabel source reply).2.channel := by
  unfold Locked.relabel
  split
  · exact ⟨h.cfg, h.microstep, h.fraction, h.rate⟩
  · exact h

/-- Nor does any motion command. -/
theorem untouched_motion (platform : Platform K δ) (motor : ι) (s : Locked ι K δ) {operation : Operation K δ}
    (hmotion : operation.isMotion = true) : Untouched s.channel (operation.apply platform motor s).channel := by
  cases operation with
  | moveSteps delta => exact untouched_moveSteps motor s delta
  | moveToSteps absolute hold => exact untouched_moveToSteps motor s absolute hold
  | moveMillimeters deltaMm =>
    simp only [Operation.apply, Locked.moveMillimeters]
    split
    · exact ⟨rfl, rfl, rfl, rfl⟩
    · exact (untouched_moveSteps motor s _).relabel _
  | moveToMillimeters absoluteMm hold =>
    simp only [Operation.apply, Locked.moveToMillimeters]
    split
    · exact ⟨rfl, rfl, rfl, rfl⟩
    · exact (untouched_moveToSteps motor s _ hold).relabel _
  | rotate revolutions =>
    simp only [Operation.apply, Locked.rotate]
    split
    · exact ⟨rfl, rfl, rfl, rfl⟩
    · exact untouched_moveSteps motor s _
  | home =>
    simp only [Operation.apply, Locked.home]
    split
    · exact ⟨rfl, rfl, rfl, rfl⟩
    · exact untouched_startMotion motor s _ fun c => ⟨rfl, rfl, rfl, rfl⟩
  | armPullCycle =>
    simp only [Operation.apply, Locked.armPullCycle]
    split
    · exact ⟨rfl, rfl, rfl, rfl⟩
    split
    · exact ⟨rfl, rfl, rfl, rfl⟩
    split
    · obtain ⟨hsame, -⟩ := Locked.releaseLockIfHeld_setting platform.hal motor (⟨_, { s.channel with
        lockHeld := true, retractTarget := 0, retractAfterHold := true }⟩ : Locked ι K δ) true
      exact ⟨hsame.cfg, hsame.microstep, hsame.fractionalSteps, hsame.currentStepHz⟩
    · exact ⟨rfl, rfl, rfl, rfl⟩
  | _ => cases hmotion

/-- A channel that gave its lock back with a rate of zero. -/
theorem Sound.released {w : RateWatch K} {c : StepperChannel K δ} (hal : StepperDriver K δ) (motor : ι)
    {s : Locked ι K δ} (h : w.Sound c) (hcfg : s.channel.cfg = c.cfg) (hmicrostep : s.channel.microstep = c.microstep)
    (hfraction : s.channel.fractionalSteps = c.fractionalSteps ∨ s.channel.fractionalSteps = 0)
    (hrate : s.channel.currentStepHz = 0) :
    (w.settle (s.releaseLockIfHeld motor).channel).Sound (s.releaseLockIfHeld motor).channel := by
  obtain ⟨hsame, -⟩ := Locked.releaseLockIfHeld_setting hal motor s true
  have hzero := hsame.currentStepHz.trans hrate
  refine h.quiet (hsame.cfg.trans hcfg) ?_ (hfraction.imp hsame.fractionalSteps.trans hsame.fractionalSteps.trans)
    (Or.inr hzero) fun hmoving => absurd hzero hmoving
  rw [hsame.microstep, hmicrostep]
  exact h.microstep

/-- Every operation but a turn of the pulse thread leaves what the onlooker relies on, if it sends no motor
back at a rate that is not zero. -/
theorem Sound.apply {w : RateWatch K} (platform : Platform K δ) (motor : ι) (s : Locked ι K δ)
    (operation : Operation K δ) (h : w.Sound s.channel) (hpulse : operation.isPulse = false)
    (hok : operation.KeepsHeading platform motor s w.heading) :
    (w.observe platform.sqrt operation s.channel (operation.apply platform motor s).channel).Sound
      (operation.apply platform motor s).channel := by
  have hmotion (hmotion : operation.isMotion = true) :
      (w.settle (operation.apply platform motor s).channel).Sound (operation.apply platform motor s).channel := by
    have huntouched := untouched_motion platform motor s hmotion
    refine h.quiet huntouched.cfg (huntouched.microstep ▸ h.microstep) (Or.inl huntouched.fraction)
      (Or.inl huntouched.rate) fun hmoving => hok hmotion ?_
    rwa [huntouched.rate] at hmoving
  cases operation with
  | moveSteps delta => exact hmotion rfl
  | moveToSteps absolute hold => exact hmotion rfl
  | moveMillimeters deltaMm => exact hmotion rfl
  | moveToMillimeters absoluteMm hold => exact hmotion rfl
  | rotate revolutions => exact hmotion rfl
  | home => exact hmotion rfl
  | armPullCycle => exact hmotion rfl
  | stop => exact h.released platform.hal motor rfl rfl (Or.inr rfl) rfl
  | setPositionZero => exact h.released platform.hal motor rfl rfl (Or.inr rfl) rfl
  | acknowledgeStepLoss => exact h.still rfl rfl rfl rfl rfl rfl
  | setSpeed fullStepHz =>
    simp only [observe, Operation.apply, StepperChannel.setSpeed]
    split
    · exact h.still rfl rfl rfl rfl rfl rfl
    · exact h.still rfl rfl rfl rfl rfl rfl
  | setAccel accel =>
    simp only [observe, Operation.apply, StepperChannel.setAccel]
    split
    · exact h.still rfl rfl rfl rfl rfl rfl
    split
    · exact h.still rfl rfl rfl rfl rfl rfl
    case h_2.isFalse a hpositive =>
      split
      · exact h.still rfl rfl rfl rfl rfl rfl
      · exact Sound.settle ⟨h.paced.maxStepHz, not_le.mp hpositive, h.paced.thread⟩ h.microstep h.fraction h.rate
          h.seen fun _ => h.heading
  | setRunCurrent aRms =>
    simp only [observe, Operation.apply, StepperChannel.setRunCurrent]
    split
    · exact h.still rfl rfl rfl rfl rfl rfl
    · exact h.still rfl rfl rfl rfl rfl rfl
  | setMicrostep divisor => exact h.setMicrostep platform.hal divisor
  | setEnabled enable =>
    simp only [observe, Operation.apply, Locked.setEnabled]
    split
    · exact h.still rfl rfl rfl rfl rfl rfl
    split
    · refine h.released platform.hal motor ?_ ?_ (Or.inl ?_) rfl
      all_goals
        dsimp only
        split
        · rfl
        · rfl
    split
    · exact h.still rfl rfl rfl rfl rfl rfl
    · exact h.still rfl rfl rfl rfl rfl rfl
  | tick dt now =>
    by_cases hdt : 0 < dt
    · exact h.tick platform motor s now hdt
    · simp only [observe, Operation.apply, Locked.tick, if_pos (not_lt.mp hdt)]
      rw [if_neg fun hboth => hdt hboth.1, if_neg (not_not.mpr rfl)]
      exact h.still rfl rfl rfl rfl rfl rfl
  | pulse elapsed => cases hpulse
  | driverChange after => exact h.still rfl rfl rfl rfl rfl rfl

/-- Giving the lock back leaves the part of a pulse that is left over. -/
theorem fraction_released (motor : ι) (s : Locked ι K δ) :
    (s.releaseLockIfHeld motor).channel.fractionalSteps = s.channel.fractionalSteps := by
  unfold Locked.releaseLockIfHeld
  split
  · rfl
  · rfl

/-- Only ticks and pulses add to the part of a pulse that is left over. -/
theorem fraction_apply (platform : Platform K δ) (motor : ι) (s : Locked ι K δ) {operation : Operation K δ}
    (hpulse : operation.isPulse = false) (htick : ∀ dt now, operation ≠ .tick dt now) :
    (operation.apply platform motor s).channel.fractionalSteps = s.channel.fractionalSteps ∨
      (operation.apply platform motor s).channel.fractionalSteps = 0 := by
  cases hmotion : operation.isMotion with
  | true => exact Or.inl (untouched_motion platform motor s hmotion).fraction
  | false =>
    cases operation with
    | stop => exact Or.inr (fraction_released motor _)
    | setPositionZero => exact Or.inr (fraction_released motor _)
    | acknowledgeStepLoss => exact Or.inl rfl
    | setSpeed fullStepHz =>
      simp only [Operation.apply, StepperChannel.setSpeed]
      split
      · exact Or.inl rfl
      · exact Or.inl rfl
    | setAccel accel =>
      simp only [Operation.apply, StepperChannel.setAccel]
      split
      · exact Or.inl rfl
      split
      · exact Or.inl rfl
      split
      · exact Or.inl rfl
      · exact Or.inl rfl
    | setRunCurrent aRms =>
      simp only [Operation.apply, StepperChannel.setRunCurrent]
      split
      · exact Or.inl rfl
      · exact Or.inl rfl
    | setMicrostep divisor =>
      simp only [Operation.apply, StepperChannel.setMicrostep]
      split
      · exact Or.inl rfl
      split
      · exact Or.inl rfl
      split
      · exact Or.inl rfl
      · exact Or.inl rfl
    | setEnabled enable =>
      simp only [Operation.apply, Locked.setEnabled]
      split
      · exact Or.inl rfl
      split
      · refine Or.inl ((fraction_released motor _).trans ?_)
        dsimp only
        split
        · rfl
        · rfl
      split
      · exact Or.inl rfl
      · exact Or.inl rfl
    | tick dt now => exact absurd rfl (htick dt now)
    | pulse elapsed => cases hpulse
    | driverChange after => exact Or.inl rfl
    | _ => cases hmotion

/-- The pulses of an operation and the part left over after it are paid for by the part left over before it and
the allowance. -/
theorem Sound.budget {w : RateWatch K} (platform : Platform K δ) (motor : ι) (s : Locked ι K δ)
    (operation : Operation K δ) (h : w.Sound s.channel) (hpulse : operation.isPulse = false) :
    (operation.pulses s.channel (operation.apply platform motor s).channel : K) +
        (operation.apply platform motor s).channel.fractionalSteps ≤
      s.channel.fractionalSteps + operation.allowance s.channel := by
  have hother (htick : ∀ dt now, operation ≠ .tick dt now)
      (hnone : operation.pulses s.channel (operation.apply platform motor s).channel = 0)
      (hfree : operation.allowance s.channel = 0) :
      (operation.pulses s.channel (operation.apply platform motor s).channel : K) +
          (operation.apply platform motor s).channel.fractionalSteps ≤
        s.channel.fractionalSteps + operation.allowance s.channel := by
    rw [hnone, hfree, Int.cast_zero, zero_add, add_zero]
    rcases fraction_apply platform motor s hpulse htick with hsame | hzero
    · exact hsame.le
    · rw [hzero]
      exact h.fraction.1
  cases operation with
  | tick dt now =>
    simp only [Operation.pulses, Operation.allowance, Operation.apply]
    by_cases hdt : 0 < dt
    · obtain ⟨steps, heffect⟩ := Locked.tick_effect platform.hal platform.sqrt motor s now hdt h.paced h.microstep
        h.fraction h.rate.1
      rw [(moved_of_stepped heffect.stepped).1, max_eq_right hdt.le]
      exact_mod_cast heffect.budget
    · rw [max_eq_left (not_lt.mp hdt), mul_zero, Locked.tick, if_pos (not_lt.mp hdt), sub_self, abs_zero,
        Int.cast_zero, zero_add, add_zero]
  | _ => exact hother (by simp) rfl rfl

end RateWatch

namespace Rig

/-- The pulses one motor issues in a run. -/
def pulses (platform : Platform K δ) (motor : ι) : Rig ι K δ → List (ι × Operation K δ) → ℤ
  | _, [] => 0
  | rig, input :: rest =>
    (if input.1 = motor then
        input.2.pulses (rig.channels motor) ((rig.step platform input).channels motor)
      else 0) + pulses platform motor (rig.step platform input) rest

/-- The pulses the ceiling of one motor's rate leaves room for in a run. -/
def allowance (platform : Platform K δ) (motor : ι) : Rig ι K δ → List (ι × Operation K δ) → K
  | _, [] => 0
  | rig, input :: rest =>
    (if input.1 = motor then input.2.allowance (rig.channels motor) else 0) +
      allowance platform motor (rig.step platform input) rest

end Rig

/-- A rig with what an onlooker has seen of the rate of each motor. -/
structure Rated (ι K δ : Type*) where
  rig : Rig ι K δ
  watch : ι → RateWatch K

namespace Rated

/-- The rig as it is constructed, with nothing seen. -/
def start (platform : Platform K δ) (cfg : ι → ChannelConfig K) (driver : ι → Option δ) : Rated ι K δ :=
  ⟨.start platform cfg driver, fun _ => ⟨0, none⟩⟩

/-- Carry out an operation of one motor before the eyes of the onlooker. -/
def step (platform : Platform K δ) (s : Rated ι K δ) (input : ι × Operation K δ) : Rated ι K δ :=
  ⟨s.rig.step platform input,
    Function.update s.watch input.1 ((s.watch input.1).observe platform.sqrt input.2 (s.rig.channels input.1)
      ((s.rig.step platform input).channels input.1))⟩

/-- Whatever tick comes next, the rate of a motor on its way rises by the acceleration at most from the rate of
its tick on the way before, and its pulses do not turn round unless the rate was zero in between. -/
def Smooth (platform : Platform K δ) (s : Rated ι K δ) : Prop :=
  ∀ motor dt now, 0 < dt →
    let c := s.rig.channels motor
    let after := ((s.rig.locked motor).tick platform.hal platform.sqrt motor dt now).channel
    (c.OnWay → Locked.rampedHz platform.sqrt c dt ≤
      (s.watch motor).lastHz + c.cfg.accelStepsPerS2 * dt) ∧
    (after.position ≠ c.position → (s.watch motor).heading = none ∨
      (s.watch motor).heading = some (decide (after.position > c.position)))

/-- An input sends no motor back at a rate that is not zero. -/
def KeepsHeading (platform : Platform K δ) (s : Rated ι K δ) (input : ι × Operation K δ) : Prop :=
  input.2.KeepsHeading platform input.1 (s.rig.locked input.1) (s.watch input.1).heading

/-- Whether an input keeps the heading can be decided. -/
instance (platform : Platform K δ) (s : Rated ι K δ) (input : ι × Operation K δ) :
    Decidable (s.KeepsHeading platform input) :=
  inferInstanceAs (Decidable (input.2.KeepsHeading _ _ _ _))

variable [IsStrictOrderedRing K]

/-- What the onlooker relies on for every motor. -/
def Sound (s : Rated ι K δ) : Prop := ∀ motor, (s.watch motor).Sound (s.rig.channels motor)

/-- The rig as it is constructed gives nothing to doubt. -/
theorem sound_start (platform : Platform K δ) {cfg : ι → ChannelConfig K} (driver : ι → Option δ)
    (hcfg : ∀ motor, (cfg motor).Paced) : (start platform cfg driver).Sound := by
  intro motor
  obtain ⟨hmax, haccel, hthread⟩ := hcfg motor
  refine ⟨⟨hmax, haccel, hthread⟩, ?_, ⟨le_rfl, one_pos⟩, ⟨le_rfl, hmax.le⟩, le_rfl, fun _ h => by cases h⟩
  simp only [start, Rig.start, StepperChannel.new]
  split
  case isTrue hsupported => exact isSupportedMicrostep_pos hsupported
  case isFalse => decide

/-- A step that is no turn of the pulse thread and sends no motor back at a rate that is not zero. -/
theorem sound_step (platform : Platform K δ) (s : Rated ι K δ) (input : ι × Operation K δ) (h : s.Sound)
    (hok : input.2.isPulse = false ∧ s.KeepsHeading platform input) : (s.step platform input).Sound := by
  intro motor
  by_cases hmotor : motor = input.1
  · subst hmotor
    simp only [step, Rig.step, Function.update_self]
    exact (h input.1).apply platform input.1 (s.rig.locked input.1) input.2 hok.1 hok.2
  · simpa only [step, Rig.step, Function.update_of_ne hmotor] using h motor

/-- Where the onlooker has nothing to doubt, every tick is smooth. -/
theorem Sound.smooth (platform : Platform K δ) {s : Rated ι K δ} (h : s.Sound) : s.Smooth platform := by
  intro motor dt now hdt c after
  have hsound := h motor
  refine ⟨fun _ => ?_, fun hmoved => ?_⟩
  · have hrise := (Locked.rampedHz_mem platform.sqrt hdt hsound.paced hsound.rate.1).2.2
    have hseen := hsound.seen
    linarith
  · obtain ⟨steps, heffect⟩ := Locked.tick_effect platform.hal platform.sqrt motor (s.rig.locked motor) now hdt
      hsound.paced hsound.microstep hsound.fraction hsound.rate.1
    have hdirection : decide (after.position > c.position) = Locked.towards c :=
      (RateWatch.moved_of_stepped heffect.stepped).2 hmoved
    rw [hdirection]
    cases hheading : (s.watch motor).heading with
    | none => exact Or.inl rfl
    | some direction =>
      have haway : c.position ≠ c.target := by
        intro hplace
        have hremaining : (steps : ℤ) ≤ |c.target - c.position| := heffect.remaining
        rw [hplace, sub_self, abs_zero] at hremaining
        have hnone : |after.position - c.position| = steps := (RateWatch.moved_of_stepped heffect.stepped).1
        exact hmoved (sub_eq_zero.mp (abs_eq_zero.mp (le_antisymm (hnone.trans_le hremaining) (abs_nonneg _))))
      exact Or.inr (congrArg some (hsound.heading direction hheading haway).symm)

/-- The pulses of a series and the part left over after it are paid for by the part left over before it and the
allowance. -/
theorem Sound.budget (platform : Platform K δ) (motor : ι) {s : Rated ι K δ}
    {series : List (ι × Operation K δ)} (h : s.Sound)
    (hok : Meets (step platform) (fun s input => input.2.isPulse = false ∧ s.KeepsHeading platform input) s series) :
    (s.rig.pulses platform motor series : K) +
        ((run (step platform) s series).rig.channels motor).fractionalSteps ≤
      (s.rig.channels motor).fractionalSteps + s.rig.allowance platform motor series := by
  induction series generalizing s with
  | nil => simp [Rig.pulses, Rig.allowance]
  | cons input rest ih =>
    have hrest := ih (sound_step platform s input h hok.1) hok.2
    have hrig : (s.step platform input).rig = s.rig.step platform input := rfl
    rw [hrig] at hrest
    simp only [Rig.pulses, Rig.allowance, run_cons]
    by_cases hmotor : input.1 = motor
    · subst hmotor
      have hstep := (h input.1).budget platform input.1 (s.rig.locked input.1) input.2 hok.1.1
      have hafter : (s.rig.step platform input).channels input.1 =
          (input.2.apply platform input.1 (s.rig.locked input.1)).channel := by
        simp only [Rig.step, Function.update_self]
      rw [if_pos rfl, if_pos rfl]
      rw [hafter] at hrest ⊢
      have hchannel : (s.rig.locked input.1).channel = s.rig.channels input.1 := rfl
      rw [hchannel] at hstep
      push_cast at hrest ⊢
      linarith
    · have hafter : (s.rig.step platform input).channels motor = s.rig.channels motor := by
        simp only [Rig.step, Function.update_of_ne (Ne.symm hmotor)]
      rw [if_neg hmotor, if_neg hmotor, zero_add, zero_add]
      rw [hafter] at hrest
      exact hrest

/-- The onlooker changes nothing in the rig. -/
theorem rig_run (platform : Platform K δ) (s : Rated ι K δ) (inputs : List (ι × Operation K δ)) :
    (run (step platform) s inputs).rig = run (Rig.step platform) s.rig inputs := by
  induction inputs generalizing s with
  | nil => rfl
  | cons input rest ih => exact ih (s.step platform input)

/-- In a run that sends no motor back at a rate that is not zero, the pulses of every series of operations are
at most one more than the ceiling of the rate leaves room for, and every tick is smooth. -/
theorem envelope (platform : Platform K δ) {cfg : ι → ChannelConfig K} (driver : ι → Option δ)
    (hcfg : ∀ motor, (cfg motor).Paced) {inputs : List (ι × Operation K δ)}
    (hpulse : ∀ input ∈ inputs, input.2.isPulse = false)
    (hok : Meets (step platform) (KeepsHeading platform) (start platform cfg driver) inputs) :
    (∀ motor first series, first ++ series <+: inputs →
      let rig := run (Rig.step platform) (Rig.start platform cfg driver) first
      (rig.pulses platform motor series : K) ≤ 1 + rig.allowance platform motor series) ∧
    Holds (step platform) (Smooth platform) (start platform cfg driver) inputs := by
  have hboth := hok.and_inputs hpulse
  have hstart := sound_start platform driver hcfg
  refine ⟨fun motor first series hprefix => ?_,
    holds_of_meets (sound_step platform) (fun s h => h.smooth platform) hstart hboth⟩
  obtain ⟨rest, rfl⟩ := hprefix
  obtain ⟨hfirst, hseries⟩ := meets_append.mp (meets_append.mp hboth).1
  have hsound := run_invariant (sound_step platform) hstart hfirst
  have hsoundAfter := run_invariant (sound_step platform) hsound hseries
  have hbudget := hsound.budget platform motor hseries
  have hbefore := (hsound motor).fraction.2
  have hafter := (hsoundAfter motor).fraction.1
  rw [rig_run] at hbudget hbefore
  have hrig : (start platform cfg driver).rig = Rig.start platform cfg driver := rfl
  rw [hrig] at hbudget hbefore
  dsimp only
  linarith

/-- The first motor of the bench goes a hundred microsteps for two ticks, and is then sent elsewhere. -/
def sentOn (delta : ℤ) : List (Fin 2 × Operation ℚ SimulatedStepperDriver) :=
  [(Rig.benchMotor, .setEnabled true), (Rig.benchMotor, .moveSteps 100), (Rig.benchMotor, .tick (1 / 10) 0),
    (Rig.benchMotor, .setSpeed 50), (Rig.benchMotor, .tick (1 / 10) 0), (Rig.benchMotor, .moveSteps delta)]

/-- The bench before anything was seen. -/
def bench : Rated (Fin 2) ℚ SimulatedStepperDriver :=
  start SimulatedStepperDriver.platform Rig.benchConfig Rig.benchDriver

/-- Sent further the same way, the motor stays in the envelope. -/
theorem envelope_sentOn :
    (∀ motor, (Rig.benchConfig motor).Paced) ∧
      (∀ input ∈ sentOn 50, input.2.isPulse = false) ∧
      Meets (step SimulatedStepperDriver.platform) (KeepsHeading SimulatedStepperDriver.platform) bench (sentOn 50) ∧
      Holds (step SimulatedStepperDriver.platform) (Smooth SimulatedStepperDriver.platform) bench (sentOn 50) :=
  have hpaced : ∀ motor, (Rig.benchConfig motor).Paced := fun _ =>
    ⟨by norm_num [Rig.benchConfig], by norm_num [Rig.benchConfig], rfl⟩
  have hpulse : ∀ input ∈ sentOn 50, input.2.isPulse = false := by
    intro input hinput
    simp only [sentOn, List.mem_cons, List.not_mem_nil, or_false] at hinput
    rcases hinput with rfl | rfl | rfl | rfl | rfl | rfl
    all_goals rfl
  have hok : Meets (step SimulatedStepperDriver.platform) (KeepsHeading SimulatedStepperDriver.platform) bench
      (sentOn 50) := by
    decide +kernel
  ⟨hpaced, hpulse, hok, (envelope SimulatedStepperDriver.platform Rig.benchDriver hpaced hpulse hok).2⟩

/-- Sent back, the motor turns round at the rate it has: its next pulses go the other way while the rate is
not zero. -/
theorem sentBack_turns :
    ¬ Holds (step SimulatedStepperDriver.platform) (Smooth SimulatedStepperDriver.platform) bench (sentOn (-200)) := by
  intro h
  have hturns := (h.last Rig.benchMotor (1 / 10) 0 (by decide +kernel)).2 (by decide +kernel)
  exact absurd hturns (by decide +kernel)

end Rated

end Coatheal.Motion
