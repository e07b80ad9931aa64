import Coatheal.Motion.Watch
import Mathlib.Data.Rat.Cast.Order
import Mathlib.Tactic.Linarith

/-!
# The travel limit of a channel

A channel that starts inside its limit stays inside with target, position and
retract target, and its 64-bit arithmetic is exact, as long as the operands leave
room. A change of the microstep divisor rescales all three without looking at the
limit, so it has to leave them inside.
-/

set_option linter.unusedSectionVars false

namespace Coatheal.Motion

open Coatheal.Library

variable {ι δ : Type*} [DecidableEq ι]

/-- A number and its magnitude are 64-bit integers. -/
def Fits (x : ℤ) : Prop := |x| < 2 ^ 63

/-- Target, position and retract target are inside the limit, and the travel of a pull is an `int`. -/
structure InLimit (limit : ℤ) (c : StepperChannel ℚ δ) : Prop where
  maximum : c.cfg.maxPositionSteps = limit
  pull : |c.cfg.pullTravelFullSteps| ≤ 2 ^ 31
  microstep : isSupportedMicrostep c.microstep = true
  target : |c.target| ≤ limit
  position : |c.position| ≤ limit
  retractTarget : |c.retractTarget| ≤ limit

/-- A channel that differs in other things is inside its limit as before. -/
theorem InLimit.same {limit : ℤ} {c after : StepperChannel ℚ δ} (h : InLimit limit c)
    (hlimit : after.cfg.maxPositionSteps = c.cfg.maxPositionSteps)
    (hpull : after.cfg.pullTravelFullSteps = c.cfg.pullTravelFullSteps)
    (hmicrostep : after.microstep = c.microstep) (htarget : after.target = c.target)
    (hposition : after.position = c.position) (hretract : after.retractTarget = c.retractTarget) :
    InLimit limit after :=
  ⟨hlimit.trans h.maximum, by rw [hpull]; exact h.pull, by rw [hmicrostep]; exact h.microstep,
    by rw [htarget]; exact h.target, by rw [hposition]; exact h.position,
    by rw [hretract]; exact h.retractTarget⟩

/-- The limit itself is not negative. -/
theorem InLimit.nonneg {limit : ℤ} {c : StepperChannel ℚ δ} (h : InLimit limit c) : 0 ≤ limit :=
  (abs_nonneg _).trans h.target

namespace Locked

open StepperChannel

variable {limit : ℤ}

/-- Absorbing step-loss events is no travel. -/
theorem absorbDriverStepLoss_inLimit (hal : StepperDriver ℚ δ) {c : StepperChannel ℚ δ}
    (h : InLimit limit c) : InLimit limit (absorbDriverStepLoss hal c).2 := by
  unfold absorbDriverStepLoss
  split
  · exact h
  · dsimp only
    split
    · exact h.same rfl rfl rfl rfl rfl rfl
    · exact h.same rfl rfl rfl rfl rfl rfl

/-- Working out the due pulses is no travel. -/
theorem updateRampSpeed_inLimit (sqrt : ℚ → ℚ) {c : StepperChannel ℚ δ} (dt : ℚ) (remaining : ℤ)
    (h : InLimit limit c) : InLimit limit (updateRampSpeed sqrt c dt remaining) := by
  unfold updateRampSpeed
  split
  · exact h
  split
  · exact h.same rfl rfl rfl rfl rfl rfl
  · exact h.same rfl rfl rfl rfl rfl rfl

/-- Reporting the rate is no travel. -/
theorem reportStepRateToDriver_inLimit (hal : StepperDriver ℚ δ) {c : StepperChannel ℚ δ}
    (h : InLimit limit c) : InLimit limit (reportStepRateToDriver hal c) := by
  unfold reportStepRateToDriver
  split
  · exact h
  · exact h.same rfl rfl rfl rfl rfl rfl

/-- Giving the lock back is no travel. -/
theorem releaseLockIfHeld_inLimit (motor : ι) {s : Locked ι ℚ δ} (h : InLimit limit s.channel) :
    InLimit limit (releaseLockIfHeld motor s).channel := by
  unfold releaseLockIfHeld
  split
  · exact h.same rfl rfl rfl rfl rfl rfl
  · exact h

/-- A move that ends on a step loss ends inside the limit. -/
theorem abortMoveForStepLoss_inLimit (motor : ι) {s : Locked ι ℚ δ} (h : InLimit limit s.channel) :
    InLimit limit (abortMoveForStepLoss motor s).channel :=
  releaseLockIfHeld_inLimit motor ⟨h.maximum, h.pull, h.microstep, h.position, h.position, h.position⟩

/-- A move whose step is refused ends inside the limit. -/
theorem stepRefused_inLimit (hal : StepperDriver ℚ δ) (motor : ι) {s : Locked ι ℚ δ} (d : δ)
    (counted : Bool) (h : InLimit limit s.channel) :
    InLimit limit (stepRefused hal motor s d counted).channel := by
  unfold stepRefused
  refine releaseLockIfHeld_inLimit motor ?_
  cases counted with
  | true => exact ⟨h.maximum, h.pull, h.microstep, h.position, h.position, h.retractTarget⟩
  | false => exact ⟨h.maximum, h.pull, h.microstep, h.position, h.position, h.retractTarget⟩

/-- There is room for this many steps before the limit. -/
def Room (limit : ℤ) (forward : Bool) (left : ℕ) (position : ℤ) : Prop :=
  if forward then position + left ≤ limit else -limit ≤ position - left

/-- The pulse loop stays inside the limit while there is room. -/
theorem issueLoop_inLimit (hal : StepperDriver ℚ δ) (motor : ι) (forward : Bool) (left : ℕ) (issued : ℤ)
    {s : Locked ι ℚ δ} (h : InLimit limit s.channel) (hroom : Room limit forward left s.channel.position) :
    InLimit limit (issueLoop hal motor forward left issued s).2.channel := by
  induction left generalizing issued s with
  | zero => exact h
  | succ left ih =>
    unfold issueLoop
    cases hdriver : s.channel.driver with
    | none => exact h
    | some d =>
      dsimp only
      have hcalled : InLimit limit { s.channel with driver := some (hal.step d forward).2 } :=
        h.same rfl rfl rfl rfl rfl rfl
      have habsorbed := absorbDriverStepLoss_inLimit hal hcalled
      have hplace := (absorbCalled_course hal s.channel (some (hal.step d forward).2)).position
      generalize absorbDriverStepLoss hal { s.channel with driver := some (hal.step d forward).2 } =
        absorbed at habsorbed hplace ⊢
      have hstepped : |absorbed.2.position + if forward then 1 else -1| ≤ limit ∧
          Room limit forward left (absorbed.2.position + if forward then 1 else -1) := by
        obtain ⟨hlow, hhigh⟩ := abs_le.mp h.position
        unfold Room at hroom ⊢
        rw [hplace]
        cases forward with
        | true =>
          simp only [if_true, Nat.cast_add, Nat.cast_one] at hroom ⊢
          exact ⟨abs_le.mpr ⟨by omega, by omega⟩, by omega⟩
        | false =>
          simp only [Bool.false_eq_true, if_false, Nat.cast_add, Nat.cast_one] at hroom ⊢
          exact ⟨abs_le.mpr ⟨by omega, by omega⟩, by omega⟩
      cases (hal.step d forward).1 with
      | true =>
        simp only [if_true]
        have hmoved : InLimit limit { absorbed.2 with
            position := absorbed.2.position + if forward then 1 else -1 } :=
          ⟨habsorbed.maximum, habsorbed.pull, habsorbed.microstep, habsorbed.target, hstepped.1,
            habsorbed.retractTarget⟩
        split
        · exact abortMoveForStepLoss_inLimit motor hmoved
        · exact ih _ hmoved hstepped.2
      | false =>
        simp only [Bool.false_eq_true, if_false]
        split
        · exact abortMoveForStepLoss_inLimit motor habsorbed
        split
        · exact habsorbed
        · exact stepRefused_inLimit hal motor _ _ habsorbed

/-- Issuing pulses stays inside the limit: there is room up to the target. -/
theorem issuePulses_inLimit (hal : StepperDriver ℚ δ) (motor : ι) {s : Locked ι ℚ δ} (allowed : ℤ)
    (h : InLimit limit s.channel) : InLimit limit (issuePulses hal motor s allowed).2.channel := by
  unfold issuePulses
  dsimp only
  split
  · exact h
  split
  · exact h
  case isFalse hplace =>
    have hroom : Room limit (decide (s.channel.target > s.channel.position))
        (min allowed |s.channel.target - s.channel.position|).toNat s.channel.position := by
      obtain ⟨hlow, hhigh⟩ := abs_le.mp h.target
      obtain ⟨hplow, hphigh⟩ := abs_le.mp h.position
      have hleft := min_le_right allowed |s.channel.target - s.channel.position|
      unfold Room
      by_cases hforward : s.channel.target > s.channel.position
      · rw [if_pos (decide_eq_true hforward)]
        rw [abs_of_pos (by omega)] at hleft ⊢
        omega
      · rw [if_neg (by simpa using hforward)]
        rw [abs_of_neg (by omega)] at hleft ⊢
        omega
    have hloop := issueLoop_inLimit hal motor _ _ 0 h hroom
    split
    · exact absorbDriverStepLoss_inLimit hal (hloop.same rfl rfl rfl rfl rfl rfl)
    · exact hloop

/-- The end of a leg is no travel. -/
theorem endLeg_inLimit (motor : ι) {s : Locked ι ℚ δ} (h : InLimit limit s.channel) :
    InLimit limit (endLeg motor s).channel := by
  unfold endLeg
  split
  · exact h.same rfl rfl rfl rfl rfl rfl
  split
  · exact releaseLockIfHeld_inLimit motor (h.same rfl rfl rfl rfl rfl rfl)
  · exact releaseLockIfHeld_inLimit motor (h.same rfl rfl rfl rfl rfl rfl)

/-- A hold that ends retracts to a place inside the limit. -/
theorem tickHolding_inLimit (motor : ι) {s : Locked ι ℚ δ} (dt : ℚ) (h : InLimit limit s.channel) :
    InLimit limit (tickHolding motor s dt).channel := by
  unfold tickHolding
  dsimp only
  split
  · split
    · split
      · exact ⟨h.maximum, h.pull, h.microstep, h.retractTarget, h.position, h.retractTarget⟩
      · exact releaseLockIfHeld_inLimit motor
          ⟨h.maximum, h.pull, h.microstep, h.retractTarget, h.position, h.retractTarget⟩
    · exact releaseLockIfHeld_inLimit motor (h.same rfl rfl rfl rfl rfl rfl)
  · exact h.same rfl rfl rfl rfl rfl rfl

/-- A tick that issues pulses stays inside the limit. -/
theorem tickPulses_inLimit (hal : StepperDriver ℚ δ) (sqrt : ℚ → ℚ) (motor : ι) {s : Locked ι ℚ δ} (dt : ℚ)
    (h : InLimit limit s.channel) : InLimit limit (tickPulses hal sqrt motor s dt).channel := by
  have hdue : InLimit limit (duePulses hal sqrt s.channel dt).2 :=
    (reportStepRateToDriver_inLimit hal (updateRampSpeed_inLimit sqrt dt _ h)).same rfl rfl rfl rfl rfl rfl
  have hissued : InLimit limit (issuePulses hal motor ⟨s.lock, (duePulses hal sqrt s.channel dt).2⟩
      (duePulses hal sqrt s.channel dt).1).2.channel := issuePulses_inLimit hal motor _ hdue
  unfold tickPulses
  dsimp only
  split
  · exact hissued.same rfl rfl rfl rfl rfl rfl
  · exact endLeg_inLimit motor (hissued.same rfl rfl rfl rfl rfl rfl)

/-- What the mode asks for stays inside the limit. -/
theorem tickMotion_inLimit (hal : StepperDriver ℚ δ) (sqrt : ℚ → ℚ) (motor : ι) {s : Locked ι ℚ δ} (dt : ℚ)
    (h : InLimit limit s.channel) : InLimit limit (tickMotion hal sqrt motor s dt).channel := by
  have hleg : InLimit limit (if s.channel.position = s.channel.target then
      endLeg motor ⟨s.lock, { s.channel with moving := false, currentStepHz := 0 }⟩
      else if s.channel.cfg.usePulseThread then ⟨s.lock, { s.channel with moving := true }⟩
      else tickPulses hal sqrt motor s dt).channel := by
    split
    · exact endLeg_inLimit motor (h.same rfl rfl rfl rfl rfl rfl)
    split
    · exact h.same rfl rfl rfl rfl rfl rfl
    · exact tickPulses_inLimit hal sqrt motor dt h
  unfold tickMotion
  split
  · exact tickHolding_inLimit motor dt h
  · exact h.same rfl rfl rfl rfl rfl rfl
  · exact hleg
  · exact hleg

/-- Supervising the driver is no travel. -/
theorem tickDriver_inLimit (hal : StepperDriver ℚ δ) (motor : ι) (now : ℤ) {s : Locked ι ℚ δ}
    (h : InLimit limit s.channel) : InLimit limit (tickDriver hal motor now s).2.channel := by
  unfold tickDriver
  split
  · exact h
  dsimp only
  split
  · split
    · refine absorbDriverStepLoss_inLimit hal ?_
      split
      · split
        · exact h.same rfl rfl rfl rfl rfl rfl
        · exact h.same rfl rfl rfl rfl rfl rfl
      · exact h.same rfl rfl rfl rfl rfl rfl
    · exact h
  split
  · have habsorbed (d : δ) :
        InLimit limit (absorbDriverStepLoss hal { s.channel with driver := some d }).2 :=
      absorbDriverStepLoss_inLimit hal (h.same rfl rfl rfl rfl rfl rfl)
    split
    · exact abortMoveForStepLoss_inLimit motor (habsorbed _)
    · exact habsorbed _
  · exact h

/-- A thermal stop is no travel. -/
theorem tickThermal_inLimit (hal : StepperDriver ℚ δ) (motor : ι) {s : Locked ι ℚ δ}
    (h : InLimit limit s.channel) : InLimit limit (tickThermal hal motor s).2.channel := by
  unfold tickThermal
  split
  · exact h
  split
  · exact releaseLockIfHeld_inLimit motor
      ⟨h.maximum, h.pull, h.microstep, h.position, h.position, h.position⟩
  · exact h

/-- A tick stays inside the limit. -/
theorem tick_inLimit (hal : StepperDriver ℚ δ) (sqrt : ℚ → ℚ) (motor : ι) {s : Locked ι ℚ δ} (dt : ℚ)
    (now : ℤ) (h : InLimit limit s.channel) : InLimit limit (tick hal sqrt motor s dt now).channel := by
  have hdriver := tickDriver_inLimit hal motor now h
  unfold tick
  split
  · exact h
  split
  case h_1 done heq =>
    rw [heq] at hdriver
    exact hdriver
  case h_2 supervised heq =>
    rw [heq] at hdriver
    have hthermal := tickThermal_inLimit hal motor hdriver
    split
    case h_1 done hcooling =>
      rw [hcooling] at hthermal
      exact hthermal
    case h_2 cool hcooling =>
      rw [hcooling] at hthermal
      exact tickMotion_inLimit hal sqrt motor dt hthermal

/-- A pulse stays inside the limit. -/
theorem pulse_inLimit (hal : StepperDriver ℚ δ) (sqrt : ℚ → ℚ) (motor : ι) {s : Locked ι ℚ δ} (elapsed : ℚ)
    (h : InLimit limit s.channel) : InLimit limit (pulse hal sqrt motor s elapsed).channel := by
  unfold pulse
  split
  · exact h
  split
  · exact h
  dsimp only
  split
  · exact updateRampSpeed_inLimit sqrt _ _ h
  · exact issuePulses_inLimit hal motor 1
      (reportStepRateToDriver_inLimit hal (updateRampSpeed_inLimit sqrt _ _ h))

/-- A command that starts a move sets the channel inside the limit, or leaves it. -/
theorem startMotion_inLimit {motor : ι} {s : Locked ι ℚ δ} {needsLock : Prop} [Decidable needsLock]
    {set : StepperChannel ℚ δ → StepperChannel ℚ δ} (h : InLimit limit s.channel)
    (hset : ∀ c, InLimit limit c → InLimit limit (set c)) :
    InLimit limit (startMotion motor s needsLock set).2.channel := by
  unfold startMotion acquireLockForMotion
  split
  · by_cases hheld : s.channel.lockHeld = true
    · simp only [hheld, if_true]
      exact hset _ h
    · simp only [hheld, Bool.false_eq_true, if_false]
      cases s.lock.tryAcquire motor with
      | mk got taken =>
        cases got with
        | false => exact h
        | true => exact hset _ (h.same rfl rfl rfl rfl rfl rfl)
  · exact hset _ h

/-- A relative move whose sum fits stays inside the limit. -/
theorem moveSteps_inLimit {motor : ι} {s : Locked ι ℚ δ} {delta : ℤ} (h : InLimit limit s.channel)
    (hfits : s.channel.enabled = true → Fits (s.channel.target + delta)) :
    InLimit limit (s.moveSteps motor delta).2.channel := by
  unfold moveSteps
  split
  · exact h
  case isFalse henabled =>
    have hsum := hfits (by simpa using henabled)
    have hexact : wrap64 (s.channel.target + delta) = s.channel.target + delta :=
      wrap64_of_mem (abs_lt.mp hsum).1.le (abs_lt.mp hsum).2
    dsimp only
    rw [hexact]
    split
    · exact h
    case isFalse hlimit =>
      rw [abs64_of_lt hsum, h.maximum] at hlimit
      exact startMotion_inLimit h fun c hc =>
        ⟨hc.maximum, hc.pull, hc.microstep, not_lt.mp hlimit, hc.position, hc.position⟩

/-- A move to a position that fits stays inside the limit. -/
theorem moveToSteps_inLimit {motor : ι} {s : Locked ι ℚ δ} {absolute : ℤ} {hold : ℚ}
    (h : InLimit limit s.channel) (hfits : s.channel.enabled = true → Fits absolute) :
    InLimit limit (s.moveToSteps motor absolute hold).2.channel := by
  unfold moveToSteps
  split
  · exact h
  case isFalse henabled =>
    split
    · exact h
    case isFalse hlimit =>
      rw [abs64_of_lt (hfits (by simpa using henabled)), h.maximum] at hlimit
      split
      · exact h
      · exact startMotion_inLimit h fun c hc =>
          ⟨hc.maximum, hc.pull, hc.microstep, not_lt.mp hlimit, hc.position, hc.position⟩

/-- Relabelling is no travel. -/
theorem relabel_inLimit (source : String) {reply : Except String Unit × Locked ι ℚ δ}
    (h : InLimit limit reply.2.channel) : InLimit limit (relabel source reply).2.channel := by
  unfold relabel
  split
  · exact h.same rfl rfl rfl rfl rfl rfl
  · exact h

/-- Home is inside the limit. -/
theorem home_inLimit {motor : ι} {s : Locked ι ℚ δ} (h : InLimit limit s.channel) :
    InLimit limit (s.home motor).2.channel := by
  have hzero : |(0 : ℤ)| ≤ limit := by simpa using h.nonneg
  unfold home
  split
  · exact h
  · exact startMotion_inLimit h fun c hc =>
      ⟨hc.maximum, hc.pull, hc.microstep, hzero, hc.position, hzero⟩

/-- The travel of a pull in microsteps fits. -/
theorem pull_fits {c : StepperChannel ℚ δ} (h : InLimit limit c) :
    Fits (c.cfg.pullTravelFullSteps * c.microstep) := by
  have hdivisor : |c.microstep| ≤ 256 := by
    have hsupported := h.microstep
    unfold isSupportedMicrostep at hsupported
    simp only [List.mem_cons, List.not_mem_nil, or_false, decide_eq_true_eq] at hsupported
    rcases hsupported with hm | hm | hm | hm | hm | hm | hm | hm | hm
    all_goals
      rw [hm]
      decide
  unfold Fits
  rw [abs_mul]
  calc |c.cfg.pullTravelFullSteps| * |c.microstep|
      ≤ 2 ^ 31 * 256 := mul_le_mul h.pull hdivisor (abs_nonneg _) (by decide)
    _ < 2 ^ 63 := by decide

/-- A pull stays inside the limit, which it checks. -/
theorem armPullCycle_inLimit {motor : ι} {s : Locked ι ℚ δ} (h : InLimit limit s.channel) :
    InLimit limit (s.armPullCycle motor).2.channel := by
  have hzero : |(0 : ℤ)| ≤ limit := by simpa using h.nonneg
  unfold armPullCycle
  split
  · exact h
  split
  · exact h
  dsimp only
  split
  · exact releaseLockIfHeld_inLimit motor
      ⟨h.maximum, h.pull, h.microstep, h.target, h.position, hzero⟩
  case isFalse hlimit =>
    rw [abs64_of_lt (pull_fits h), h.maximum] at hlimit
    exact ⟨h.maximum, h.pull, h.microstep, not_lt.mp hlimit, h.position, hzero⟩

/-- Switching the power stage is no travel. -/
theorem setEnabled_inLimit (hal : StepperDriver ℚ δ) {motor : ι} {s : Locked ι ℚ δ} {enable : Bool}
    (h : InLimit limit s.channel) : InLimit limit (s.setEnabled hal motor enable).2.channel := by
  unfold setEnabled
  split
  · exact h
  dsimp only
  split
  · refine releaseLockIfHeld_inLimit motor ?_
    split
    · exact h.same rfl rfl rfl rfl rfl rfl
    · exact h.same rfl rfl rfl rfl rfl rfl
  split
  · exact h.same rfl rfl rfl rfl rfl rfl
  · exact h.same rfl rfl rfl rfl rfl rfl

/-- A change of the divisor is inside the limit if the rescaled places are. -/
theorem setMicrostep_inLimit (hal : StepperDriver ℚ δ) {c : StepperChannel ℚ δ} {divisor : ℤ}
    (h : InLimit limit c) (hrescaled : (c.setMicrostep hal divisor).1.isOk = true →
      |c.rescale divisor c.target| ≤ limit ∧ |c.rescale divisor c.position| ≤ limit ∧
        |c.rescale divisor c.retractTarget| ≤ limit) :
    InLimit limit (c.setMicrostep hal divisor).2 := by
  unfold setMicrostep at hrescaled ⊢
  split
  · exact h
  case isFalse hsupported =>
    rw [if_neg hsupported] at hrescaled
    dsimp only at hrescaled ⊢
    split
    · exact h.same rfl rfl rfl rfl rfl rfl
    case isFalse hhealthy =>
      rw [if_neg hhealthy] at hrescaled
      obtain ⟨htarget, hposition, hretract⟩ := hrescaled rfl
      have hdivisor : isSupportedMicrostep divisor = true := by simpa using hsupported
      unfold rescale at htarget hposition hretract
      split
      case isTrue hscale =>
        rw [if_pos hscale] at htarget hposition hretract
        exact ⟨h.maximum, h.pull, hdivisor, htarget, hposition, hretract⟩
      case isFalse hscale => exact ⟨h.maximum, h.pull, hdivisor, h.target, h.position, h.retractTarget⟩

/-- A distance that is accepted has few microsteps. -/
theorem ustepsOf_le {c : StepperChannel ℚ δ} {mm : Option ℚ} {usteps : ℤ} (h : ustepsOf c mm = .ok usteps) :
    |usteps| ≤ 9000000000000001 := by
  unfold ustepsOf at h
  split at h
  · cases h
  case h_2 d =>
    dsimp only at h
    split at h
    · cases h
    case isFalse hsmall =>
      cases h
      have hround := abs_llround_sub_le (d * c.ustepsPerMm)
      obtain ⟨hlow, hhigh⟩ := abs_le.mp hround
      obtain ⟨hdlow, hdhigh⟩ := abs_le.mp (not_lt.mp hsmall)
      have hupper : ((llround (d * c.ustepsPerMm) : ℤ) : ℚ) ≤ (9000000000000001 : ℤ) := by
        push_cast
        linarith
      have hlower : ((-9000000000000001 : ℤ) : ℚ) ≤ ((llround (d * c.ustepsPerMm) : ℤ) : ℚ) := by
        push_cast
        linarith
      exact abs_le.mpr ⟨by exact_mod_cast hlower, by exact_mod_cast hupper⟩

end Locked

namespace Operation

/-- The 64-bit sums, differences and conversions of an operation are exact, and so are the magnitudes
that are compared with the limit. -/
def Exact (platform : Platform ℚ δ) (c : StepperChannel ℚ δ) : Operation ℚ δ → Prop
  | .moveSteps delta => c.enabled = true → Fits (c.target + delta)
  | .moveToSteps absolute _ => c.enabled = true → Fits absolute
  | .moveMillimeters deltaMm => ∀ usteps, Locked.ustepsOf c deltaMm = .ok usteps →
      Fits usteps ∧ (c.enabled = true → Fits (c.target + usteps))
  | .moveToMillimeters absoluteMm _ => ∀ usteps, Locked.ustepsOf c absoluteMm = .ok usteps → Fits usteps
  | .rotate revolutions => 0 < c.cfg.fullStepsPerRev →
      Fits (Locked.ustepsOfRevolutions c revolutions) ∧
        (c.enabled = true → Fits (c.target + Locked.ustepsOfRevolutions c revolutions))
  | .setMicrostep divisor => (c.setMicrostep platform.hal divisor).1.isOk = true →
      Fits (c.rescale divisor c.target) ∧ Fits (c.rescale divisor c.position) ∧
        Fits (c.rescale divisor c.retractTarget)
  | .armPullCycle => Fits (c.cfg.pullTravelFullSteps * c.microstep)
  | .tick _ _ | .pulse _ => Fits (c.target - c.position)
  | _ => True

/-- The operands of an operation leave room: sums and positions fit, revolutions have a number of
microsteps that fits, and the places that a microstep change rescales stay inside the limit. -/
def Contained (platform : Platform ℚ δ) (limit : ℤ) (c : StepperChannel ℚ δ) : Operation ℚ δ → Prop
  | .moveSteps delta => c.enabled = true → Fits (c.target + delta)
  | .moveToSteps absolute _ => c.enabled = true → Fits absolute
  | .rotate revolutions => 0 < c.cfg.fullStepsPerRev →
      Fits (Locked.ustepsOfRevolutions c revolutions) ∧
        (c.enabled = true → Fits (c.target + Locked.ustepsOfRevolutions c revolutions))
  | .setMicrostep divisor => (c.setMicrostep platform.hal divisor).1.isOk = true →
      |c.rescale divisor c.target| ≤ limit ∧ |c.rescale divisor c.position| ≤ limit ∧
        |c.rescale divisor c.retractTarget| ≤ limit
  | _ => True

/-- Below a limit under `2 ^ 62` every sum with a short distance fits. -/
theorem fits_add {limit place distance : ℤ} (hlimit : limit < 2 ^ 62) (hplace : |place| ≤ limit)
    (hdistance : |distance| ≤ 2 ^ 62) : Fits (place + distance) := by
  unfold Fits
  have hsum := abs_add_le place distance
  omega

/-- An operation whose operands leave room keeps a channel inside its limit, and its arithmetic is
exact. -/
theorem apply_inLimit (platform : Platform ℚ δ) (motor : ι) (s : Locked ι ℚ δ) {limit : ℤ}
    (operation : Operation ℚ δ) (h : InLimit limit s.channel) (hlimit : limit < 2 ^ 62)
    (hok : operation.Contained platform limit s.channel) :
    InLimit limit (operation.apply platform motor s).channel ∧ operation.Exact platform s.channel := by
  have hzero : |(0 : ℤ)| ≤ limit := by simpa using h.nonneg
  have hshort {usteps : ℤ} (husteps : |usteps| ≤ 9000000000000001) : |usteps| ≤ 2 ^ 62 :=
    husteps.trans (by norm_num)
  have hdifference : Fits (s.channel.target - s.channel.position) := by
    unfold Fits
    have hsum := abs_sub s.channel.target s.channel.position
    have htarget := h.target
    have hposition := h.position
    omega
  cases operation with
  | moveSteps delta => exact ⟨Locked.moveSteps_inLimit h hok, hok⟩
  | moveToSteps absolute hold => exact ⟨Locked.moveToSteps_inLimit h hok, hok⟩
  | moveMillimeters deltaMm =>
    have hfits (usteps : ℤ) (husteps : Locked.ustepsOf s.channel deltaMm = .ok usteps) :
        Fits (s.channel.target + usteps) :=
      fits_add hlimit h.target (hshort (Locked.ustepsOf_le husteps))
    refine ⟨?_, fun usteps husteps => ⟨?_, fun _ => hfits usteps husteps⟩⟩
    · simp only [apply, Locked.moveMillimeters]
      split
      · exact h
      case h_2 usteps husteps =>
        exact Locked.relabel_inLimit _ (Locked.moveSteps_inLimit h fun _ => hfits usteps husteps)
    · exact (Locked.ustepsOf_le husteps).trans_lt (by norm_num)
  | moveToMillimeters absoluteMm hold =>
    have hfits (usteps : ℤ) (husteps : Locked.ustepsOf s.channel absoluteMm = .ok usteps) : Fits usteps :=
      (Locked.ustepsOf_le husteps).trans_lt (by norm_num)
    refine ⟨?_, hfits⟩
    simp only [apply, Locked.moveToMillimeters]
    split
    · exact h
    case h_2 usteps husteps =>
      exact Locked.relabel_inLimit _ (Locked.moveToSteps_inLimit h fun _ => hfits usteps husteps)
  | rotate revolutions =>
    refine ⟨?_, hok⟩
    simp only [apply, Locked.rotate]
    split
    · exact h
    case isFalse hrev => exact Locked.moveSteps_inLimit h (hok (not_le.mp hrev)).2
  | home => exact ⟨Locked.home_inLimit h, trivial⟩
  | stop =>
    exact ⟨Locked.releaseLockIfHeld_inLimit motor
      ⟨h.maximum, h.pull, h.microstep, h.position, h.position, h.position⟩, trivial⟩
  | setPositionZero =>
    exact ⟨Locked.releaseLockIfHeld_inLimit motor
      ⟨h.maximum, h.pull, h.microstep, hzero, hzero, hzero⟩, trivial⟩
  | acknowledgeStepLoss => exact ⟨h.same rfl rfl rfl rfl rfl rfl, trivial⟩
  | setSpeed fullStepHz =>
    refine ⟨?_, trivial⟩
    simp only [apply, StepperChannel.setSpeed]
    split
    · exact h
    · exact h.same rfl rfl rfl rfl rfl rfl
  | setAccel accel =>
    refine ⟨?_, trivial⟩
    simp only [apply, StepperChannel.setAccel]
    split
    · exact h
    split
    · exact h
    split
    · exact h
    · exact h.same rfl rfl rfl rfl rfl rfl
  | setRunCurrent aRms =>
    refine ⟨?_, trivial⟩
    simp only [apply, StepperChannel.setRunCurrent]
    split
    · exact h
    · exact h.same rfl rfl rfl rfl rfl rfl
  | setMicrostep divisor =>
    refine ⟨Locked.setMicrostep_inLimit platform.hal h hok, fun haccepted => ?_⟩
    obtain ⟨htarget, hposition, hretract⟩ := hok haccepted
    have hbelow : limit < 2 ^ 63 := hlimit.trans (by norm_num)
    exact ⟨htarget.trans_lt hbelow, hposition.trans_lt hbelow, hretract.trans_lt hbelow⟩
  | setEnabled enable => exact ⟨Locked.setEnabled_inLimit platform.hal h, trivial⟩
  | armPullCycle => exact ⟨Locked.armPullCycle_inLimit h, Locked.pull_fits h⟩
  | tick dt now => exact ⟨Locked.tick_inLimit platform.hal platform.sqrt motor dt now h, hdifference⟩
  | pulse elapsed => exact ⟨Locked.pulse_inLimit platform.hal platform.sqrt motor elapsed h, hdifference⟩
  | driverChange after => exact ⟨h.same rfl rfl rfl rfl rfl rfl, trivial⟩

end Operation

end Coatheal.Motion
