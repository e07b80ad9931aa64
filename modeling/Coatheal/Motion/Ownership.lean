import Coatheal.Motion.Operations

/-!
# Who owns the motion lock

For one channel, the lock belongs to it exactly while its mode is not idle, and
its own flag says the same. Every operation keeps this and leaves other owners
alone, except one kind of command: a move onto the present position, without a
hold, given to a channel that is not idle.
-/

set_option linter.unusedSectionVars false

namespace Coatheal.Motion

open Coatheal.Library

namespace Locked

open StepperChannel

variable {ι K δ : Type*} [DecidableEq ι] [Field K] [LinearOrder K] [FloorRing K]

/-- The lock belongs to the channel exactly while its mode is not idle, and the channel's flag
agrees. -/
structure Coupled (motor : ι) (s : Locked ι K δ) : Prop where
  flag : s.channel.lockHeld = true ↔ s.lock.holder = some motor
  mode : s.channel.mode ≠ .idle ↔ s.lock.holder = some motor

/-- Other motors own the lock after a step exactly when they owned it before. -/
def OthersKeep (motor : ι) (s after : Locked ι K δ) : Prop :=
  ∀ other, other ≠ motor → (after.lock.holder = some other ↔ s.lock.holder = some other)

/-- A step keeps the coupling and leaves other owners alone. -/
def Keeps (motor : ι) (s after : Locked ι K δ) : Prop :=
  Coupled motor s → Coupled motor after ∧ OthersKeep motor s after

/-- A step that keeps the coupling and can only give the lock back. -/
def Yields (motor : ι) (s after : Locked ι K δ) : Prop :=
  (Coupled motor s → Coupled motor after) ∧
    (after.lock = s.lock ∨ after.lock = s.lock.release motor)

/-- Giving the lock back leaves other owners alone. -/
theorem Yields.keeps {motor : ι} {s after : Locked ι K δ} (h : Yields motor s after) :
    Keeps motor s after := by
  intro hcoupled
  refine ⟨h.1 hcoupled, fun other hne => ?_⟩
  rcases h.2 with hlock | hlock
  · rw [hlock]
  · rw [hlock, MotionLock.release_holder]
    by_cases howner : s.lock.holder = some motor
    · simpa [howner] using hne.symm
    · rw [if_neg howner]

/-- Giving the lock back never takes it. -/
theorem Yields.holder_eq_none {motor : ι} {s after : Locked ι K δ} (h : Yields motor s after)
    (hfree : s.lock.holder = none) : after.lock.holder = none := by
  rcases h.2 with hlock | hlock
  · rw [hlock, hfree]
  · rw [hlock, MotionLock.release_holder, hfree]
    rfl

/-- Such steps compose. -/
theorem Yields.trans {motor : ι} {s middle after : Locked ι K δ} (hfirst : Yields motor s middle)
    (hsecond : Yields motor middle after) : Yields motor s after := by
  refine ⟨fun h => hsecond.1 (hfirst.1 h), ?_⟩
  rcases hfirst.2 with hmiddle | hmiddle <;> rcases hsecond.2 with hafter | hafter
  · exact .inl (hafter.trans hmiddle)
  · exact .inr (by rw [hafter, hmiddle])
  · exact .inr (hafter.trans hmiddle)
  · exact .inr (by rw [hafter, hmiddle, MotionLock.release_release])

/-- A step that touches neither lock nor flag and keeps the channel idle or not idle. -/
theorem Yields.of_same {motor : ι} {s after : Locked ι K δ} (hlock : after.lock = s.lock)
    (hflag : after.channel.lockHeld = s.channel.lockHeld)
    (hmode : after.channel.mode = .idle ↔ s.channel.mode = .idle) : Yields motor s after := by
  refine ⟨fun h => ⟨?_, ?_⟩, .inl hlock⟩
  · rw [hflag, hlock]
    exact h.flag
  · rw [Ne, hmode, hlock]
    exact h.mode

/-- Steps compose. -/
theorem Keeps.trans {motor : ι} {s middle after : Locked ι K δ} (hfirst : Keeps motor s middle)
    (hsecond : Keeps motor middle after) : Keeps motor s after := by
  intro h
  obtain ⟨hmiddle, hothers⟩ := hfirst h
  obtain ⟨hafter, hmore⟩ := hsecond hmiddle
  exact ⟨hafter, fun other hne => (hmore other hne).trans (hothers other hne)⟩

/-- Coming to rest and freeing the lock, whatever else changes in the channel. -/
theorem Yields.rest {motor : ι} {s resting : Locked ι K δ} (hlock : resting.lock = s.lock)
    (hflag : resting.channel.lockHeld = s.channel.lockHeld) (hmode : resting.channel.mode = .idle) :
    Yields motor s (releaseLockIfHeld motor resting) := by
  unfold releaseLockIfHeld
  by_cases hheld : s.channel.lockHeld = true
  · rw [if_pos (hflag.trans hheld)]
    refine ⟨fun h => ?_, .inr (by rw [hlock])⟩
    have hfree : (resting.lock.release motor).holder = none := by
      rw [MotionLock.release_holder, hlock, if_pos (h.flag.mp hheld)]
    exact ⟨by simp [hfree], by simp [hfree, hmode]⟩
  · rw [if_neg (by rwa [hflag])]
    refine ⟨fun h => ⟨?_, ?_⟩, .inl hlock⟩
    · rw [hflag, hlock]
      exact h.flag
    · simp [hmode, hlock, mt h.flag.mpr hheld]

/-- Starting to move with the lock taken, whatever else the command sets. -/
theorem Keeps.start {motor : ι} {s : Locked ι K δ} {set : StepperChannel K δ → StepperChannel K δ}
    (hflag : ∀ c, (set c).lockHeld = c.lockHeld)
    (hmode : ∀ c : StepperChannel K δ, c.position = s.channel.position → (set c).mode ≠ .idle) :
    Keeps motor s (startMotion motor s True set).2 := by
  intro h
  unfold startMotion acquireLockForMotion
  rw [if_pos trivial]
  by_cases hheld : s.channel.lockHeld = true
  · simp only [hheld, if_true]
    refine ⟨⟨?_, ?_⟩, fun other _ => Iff.rfl⟩
    · rw [hflag]
      exact h.flag
    · simp [hmode s.channel rfl, h.flag.mp hheld]
  · simp only [hheld, Bool.false_eq_true, if_false]
    cases hacquire : s.lock.tryAcquire motor with
    | mk got taken =>
      cases got with
      | false => exact ⟨h, fun other _ => Iff.rfl⟩
      | true =>
        obtain ⟨hfree, htaken⟩ := MotionLock.tryAcquire_eq_true hacquire
        refine ⟨⟨?_, ?_⟩, fun other hne => ?_⟩
        · simp [hflag, htaken]
        · simp [hmode { s.channel with lockHeld := true } rfl, htaken]
        · simp [htaken, hfree, hne.symm]

/-- Two states of a channel with one mode and one flag. -/
def SameStance (c after : StepperChannel K δ) : Prop :=
  after.mode = c.mode ∧ after.lockHeld = c.lockHeld

/-- A step that keeps lock and stance. -/
theorem Yields.of_stance {motor : ι} {s after : Locked ι K δ} (hlock : after.lock = s.lock)
    (h : SameStance s.channel after.channel) : Yields motor s after :=
  Yields.of_same hlock h.2 (by rw [h.1])

/-- The ramp changes the speed only. -/
theorem updateRampSpeed_stance (sqrt : K → K) (c : StepperChannel K δ) (dt : K) (remaining : ℤ) :
    SameStance c (updateRampSpeed sqrt c dt remaining) := by
  unfold updateRampSpeed
  split
  · exact ⟨rfl, rfl⟩
  split
  · exact ⟨rfl, rfl⟩
  · exact ⟨rfl, rfl⟩

/-- Absorbing step-loss events changes the counts and the driver only. -/
theorem absorbDriverStepLoss_stance (hal : StepperDriver K δ) (c : StepperChannel K δ) :
    SameStance c (absorbDriverStepLoss hal c).2 := by
  unfold absorbDriverStepLoss
  split
  · exact ⟨rfl, rfl⟩
  · dsimp only
    split
    · exact ⟨rfl, rfl⟩
    · exact ⟨rfl, rfl⟩

/-- Reporting the rate changes the driver only. -/
theorem reportStepRateToDriver_stance (hal : StepperDriver K δ) (c : StepperChannel K δ) :
    SameStance c (reportStepRateToDriver hal c) := by
  unfold reportStepRateToDriver
  split
  · exact ⟨rfl, rfl⟩
  · exact ⟨rfl, rfl⟩

/-- Stances compose. -/
theorem SameStance.trans {c middle after : StepperChannel K δ} (hfirst : SameStance c middle)
    (hsecond : SameStance middle after) : SameStance c after :=
  ⟨hsecond.1.trans hfirst.1, hsecond.2.trans hfirst.2⟩

/-- A speed command keeps the stance. -/
theorem setSpeed_stance (c : StepperChannel K δ) (hz : K) : SameStance c (c.setSpeed hz).2 := by
  unfold setSpeed
  split
  · exact ⟨rfl, rfl⟩
  · exact ⟨rfl, rfl⟩

/-- An acceleration command keeps the stance. -/
theorem setAccel_stance (shown : K → String) (c : StepperChannel K δ) (accel : Option K) :
    SameStance c (c.setAccel shown accel).2 := by
  unfold setAccel
  split
  · exact ⟨rfl, rfl⟩
  split
  · exact ⟨rfl, rfl⟩
  split
  · exact ⟨rfl, rfl⟩
  · exact ⟨rfl, rfl⟩

/-- A current command keeps the stance. -/
theorem setRunCurrent_stance (hal : StepperDriver K δ) (c : StepperChannel K δ) (aRms : K) :
    SameStance c (c.setRunCurrent hal aRms).2 := by
  unfold setRunCurrent
  split
  · exact ⟨rfl, rfl⟩
  · exact ⟨rfl, rfl⟩

/-- A microstep change keeps the stance, although the rescaled position and target may meet. -/
theorem setMicrostep_stance (hal : StepperDriver K δ) (c : StepperChannel K δ) (divisor : ℤ) :
    SameStance c (c.setMicrostep hal divisor).2 := by
  unfold setMicrostep
  split
  · exact ⟨rfl, rfl⟩
  dsimp only
  split
  · exact ⟨rfl, rfl⟩
  · split
    · exact ⟨rfl, rfl⟩
    · exact ⟨rfl, rfl⟩

/-- Ending a move on a step loss gives the lock back. -/
theorem abortMoveForStepLoss_yields (motor : ι) (s : Locked ι K δ) :
    Yields motor s (abortMoveForStepLoss motor s) :=
  Yields.rest rfl rfl rfl

/-- A refused step gives the lock back. -/
theorem stepRefused_yields (hal : StepperDriver K δ) (motor : ι) (s : Locked ι K δ) (d : δ)
    (counted : Bool) : Yields motor s (stepRefused hal motor s d counted) := by
  cases counted with
  | true => exact Yields.rest rfl rfl rfl
  | false => exact Yields.rest rfl rfl rfl

/-- The pulse loop ends with the lock kept or given back. -/
theorem issueLoop_yields (hal : StepperDriver K δ) (motor : ι) (forward : Bool) (left : ℕ) (issued : ℤ)
    (s : Locked ι K δ) : Yields motor s (issueLoop hal motor forward left issued s).2 := by
  induction left generalizing issued s with
  | zero => exact Yields.of_stance rfl ⟨rfl, rfl⟩
  | succ left ih =>
    unfold issueLoop
    split
    · exact Yields.of_stance rfl ⟨rfl, rfl⟩
    case h_2 d hdriver =>
      obtain ⟨hmode, hflag⟩ := absorbDriverStepLoss_stance hal
        { s.channel with driver := some (hal.step d forward).2 }
      dsimp only
      cases hstepped : (hal.step d forward).1 with
      | true =>
        simp only [if_true]
        split
        · refine Yields.trans ?_ (abortMoveForStepLoss_yields motor _)
          exact Yields.of_stance rfl ⟨hmode, hflag⟩
        · refine Yields.trans ?_ (ih _ _)
          exact Yields.of_stance rfl ⟨hmode, hflag⟩
      | false =>
        simp only [Bool.false_eq_true, if_false]
        split
        · refine Yields.trans ?_ (abortMoveForStepLoss_yields motor _)
          exact Yields.of_stance rfl ⟨hmode, hflag⟩
        split
        · exact Yields.of_stance rfl ⟨hmode, hflag⟩
        · refine Yields.trans ?_ (stepRefused_yields hal motor _ _ _)
          exact Yields.of_stance rfl ⟨hmode, hflag⟩

/-- Issuing pulses ends with the lock kept or given back. -/
theorem issuePulses_yields (hal : StepperDriver K δ) (motor : ι) (s : Locked ι K δ) (allowed : ℤ) :
    Yields motor s (issuePulses hal motor s allowed).2 := by
  unfold issuePulses
  dsimp only
  split
  · exact Yields.of_stance rfl ⟨rfl, rfl⟩
  split
  · exact Yields.of_stance rfl ⟨rfl, rfl⟩
  split
  · refine (issueLoop_yields hal motor _ _ 0 s).trans (Yields.of_stance rfl ?_)
    exact absorbDriverStepLoss_stance hal _
  · exact issueLoop_yields hal motor _ _ 0 s

/-- The end of a leg keeps the lock for a hold and gives it back otherwise. -/
theorem endLeg_yields (motor : ι) (s : Locked ι K δ) : Yields motor s (endLeg motor s) := by
  unfold endLeg
  split
  case isTrue h => exact Yields.of_same rfl rfl (by simp [h.1])
  split
  · exact Yields.rest rfl rfl rfl
  · exact Yields.rest rfl rfl rfl

/-- A hold that ends keeps the lock for a retract and gives it back otherwise. -/
theorem tickHolding_yields (motor : ι) (s : Locked ι K δ) (dt : K) (hmode : s.channel.mode = .holding) :
    Yields motor s (tickHolding motor s dt) := by
  unfold tickHolding
  dsimp only
  split
  · split
    · split
      · exact Yields.of_same rfl rfl (by simp [hmode])
      · exact Yields.rest rfl rfl rfl
    · exact Yields.rest rfl rfl rfl
  · exact Yields.of_same rfl rfl (by simp [hmode])

/-- Working out the due pulses changes speed, fraction and driver only. -/
theorem duePulses_stance (hal : StepperDriver K δ) (sqrt : K → K) (c : StepperChannel K δ) (dt : K) :
    SameStance c (duePulses hal sqrt c dt).2 :=
  (updateRampSpeed_stance sqrt c dt _).trans (reportStepRateToDriver_stance hal _)

/-- A tick that issues pulses ends with the lock kept or given back. -/
theorem tickPulses_yields (hal : StepperDriver K δ) (sqrt : K → K) (motor : ι) (s : Locked ι K δ) (dt : K) :
    Yields motor s (tickPulses hal sqrt motor s dt) := by
  have hdue : Yields motor s ⟨s.lock, (duePulses hal sqrt s.channel dt).2⟩ :=
    Yields.of_stance rfl (duePulses_stance hal sqrt s.channel dt)
  have hissued := hdue.trans (issuePulses_yields hal motor _ (duePulses hal sqrt s.channel dt).1)
  refine hissued.trans ?_
  unfold tickPulses
  dsimp only
  split
  · exact Yields.of_stance rfl ⟨rfl, rfl⟩
  · refine Yields.trans ?_ (endLeg_yields motor _)
    exact Yields.of_stance rfl ⟨rfl, rfl⟩

/-- What the mode asks for keeps the coupling. -/
theorem tickMotion_yields (hal : StepperDriver K δ) (sqrt : K → K) (motor : ι) (s : Locked ι K δ) (dt : K) :
    Yields motor s (tickMotion hal sqrt motor s dt) := by
  have hleg : Yields motor s (if s.channel.position = s.channel.target then
      endLeg motor ⟨s.lock, { s.channel with moving := false, currentStepHz := 0 }⟩
      else if s.channel.cfg.usePulseThread then ⟨s.lock, { s.channel with moving := true }⟩
      else tickPulses hal sqrt motor s dt) := by
    split
    · refine Yields.trans ?_ (endLeg_yields motor _)
      exact Yields.of_stance rfl ⟨rfl, rfl⟩
    split
    · exact Yields.of_stance rfl ⟨rfl, rfl⟩
    · exact tickPulses_yields hal sqrt motor s dt
  unfold tickMotion
  split
  case h_1 hmode => exact tickHolding_yields motor s dt hmode
  case h_2 => exact Yields.of_stance rfl ⟨rfl, rfl⟩
  case h_3 => exact hleg
  case h_4 => exact hleg

/-- Supervising the driver ends with the lock kept or, after a step loss, given back. -/
theorem tickDriver_yields (hal : StepperDriver K δ) (motor : ι) (now : ℤ) (s : Locked ι K δ) :
    Yields motor s (tickDriver hal motor now s).2 := by
  unfold tickDriver
  split
  · exact Yields.of_stance rfl ⟨rfl, rfl⟩
  dsimp only
  split
  · split
    · refine Yields.of_stance rfl ?_
      refine SameStance.trans ?_ (absorbDriverStepLoss_stance hal _)
      split
      · split
        · exact ⟨rfl, rfl⟩
        · exact ⟨rfl, rfl⟩
      · exact ⟨rfl, rfl⟩
    · exact Yields.of_stance rfl ⟨rfl, rfl⟩
  split
  · have habsorb := fun d => absorbDriverStepLoss_stance hal { s.channel with driver := some d }
    have hpolled := fun d => @Yields.of_stance ι K δ _ _ _ _ motor s
      ⟨s.lock, (absorbDriverStepLoss hal { s.channel with driver := some d }).2⟩ rfl (habsorb d)
    split
    · exact (hpolled _).trans (abortMoveForStepLoss_yields motor _)
    · exact hpolled _
  · exact Yields.of_stance rfl ⟨rfl, rfl⟩

/-- A thermal stop gives the lock back. -/
theorem tickThermal_yields (hal : StepperDriver K δ) (motor : ι) (s : Locked ι K δ) :
    Yields motor s (tickThermal hal motor s).2 := by
  unfold tickThermal
  split
  · exact Yields.of_stance rfl ⟨rfl, rfl⟩
  split
  · exact Yields.rest rfl rfl rfl
  · exact Yields.of_stance rfl ⟨rfl, rfl⟩

/-- Every tick keeps the coupling. -/
theorem tick_yields (hal : StepperDriver K δ) (sqrt : K → K) (motor : ι) (s : Locked ι K δ) (dt : K)
    (now : ℤ) : Yields motor s (tick hal sqrt motor s dt now) := by
  have hdriver := tickDriver_yields hal motor now s
  unfold tick
  split
  · exact Yields.of_stance rfl ⟨rfl, rfl⟩
  split
  case h_1 done heq => rwa [heq] at hdriver
  case h_2 supervised heq =>
    rw [heq] at hdriver
    have hthermal := tickThermal_yields hal motor supervised
    split
    case h_1 done hdone =>
      rw [hdone] at hthermal
      exact hdriver.trans hthermal
    case h_2 cool hcool =>
      rw [hcool] at hthermal
      exact (hdriver.trans hthermal).trans (tickMotion_yields hal sqrt motor cool dt)

/-- Every turn of the pulse thread keeps the coupling. -/
theorem pulse_yields (hal : StepperDriver K δ) (sqrt : K → K) (motor : ι) (s : Locked ι K δ) (elapsed : K) :
    Yields motor s (pulse hal sqrt motor s elapsed) := by
  unfold pulse
  split
  · exact Yields.of_stance rfl ⟨rfl, rfl⟩
  split
  · exact Yields.of_stance rfl ⟨rfl, rfl⟩
  dsimp only
  split
  · exact Yields.of_stance rfl (updateRampSpeed_stance sqrt _ _ _)
  · refine Yields.trans ?_ (issuePulses_yields hal motor _ 1)
    refine Yields.of_stance rfl ?_
    exact (updateRampSpeed_stance sqrt _ _ _).trans (reportStepRateToDriver_stance hal _)

/-- Stopping gives the lock back. -/
theorem stop_yields (motor : ι) (s : Locked ι K δ) : Yields motor s (stop motor s) :=
  Yields.rest rfl rfl rfl

/-- Zeroing the position gives the lock back. -/
theorem setPositionZero_yields (motor : ι) (s : Locked ι K δ) : Yields motor s (setPositionZero motor s) :=
  Yields.rest rfl rfl rfl

/-- Disabling gives the lock back whatever the driver says, and enabling leaves it alone. -/
theorem setEnabled_yields (hal : StepperDriver K δ) (motor : ι) (s : Locked ι K δ) (enable : Bool) :
    Yields motor s (setEnabled hal motor s enable).2 := by
  unfold setEnabled
  split
  · exact Yields.of_stance rfl ⟨rfl, rfl⟩
  dsimp only
  split
  · refine Yields.rest rfl ?_ rfl
    dsimp only
    split
    · rfl
    · rfl
  split
  · exact Yields.of_stance rfl ⟨rfl, rfl⟩
  · exact Yields.of_stance rfl ⟨rfl, rfl⟩

/-- A command that takes the lock exactly when it leaves the channel moving or holding keeps the
coupling, unless it puts a busy channel to rest without the lock. -/
theorem startMotion_keeps {motor : ι} {s : Locked ι K δ} {needsLock : Prop} [Decidable needsLock]
    {set : StepperChannel K δ → StepperChannel K δ} (hflag : ∀ c, (set c).lockHeld = c.lockHeld)
    (hmode : ∀ c : StepperChannel K δ, c.position = s.channel.position →
      ((set c).mode ≠ .idle ↔ needsLock)) (hrest : ¬ needsLock → s.channel.mode = .idle) :
    Keeps motor s (startMotion motor s needsLock set).2 := by
  by_cases hneeds : needsLock
  · have hstart := @Keeps.start ι K δ _ _ _ _ motor s set hflag
      fun c hc => (hmode c hc).mpr hneeds
    unfold startMotion at hstart ⊢
    rw [if_pos trivial] at hstart
    rw [if_pos hneeds]
    exact hstart
  · unfold startMotion
    rw [if_neg hneeds]
    have hidle : (set s.channel).mode = .idle := by
      by_contra hbusy
      exact hneeds ((hmode s.channel rfl).mp hbusy)
    exact Yields.keeps (Yields.of_same rfl (hflag s.channel) (by simp [hidle, hrest hneeds]))

/-- Such a command leaves a busy channel idle with the lock still taken, when it does not need the
lock. -/
theorem startMotion_strands {motor : ι} {s : Locked ι K δ} {needsLock : Prop} [Decidable needsLock]
    {set : StepperChannel K δ → StepperChannel K δ} (hcoupled : Coupled motor s)
    (hmode : ((set s.channel).mode ≠ .idle ↔ needsLock)) (hneeds : ¬ needsLock)
    (hbusy : s.channel.mode ≠ .idle) :
    (startMotion motor s needsLock set).2.channel.mode = .idle ∧
      (startMotion motor s needsLock set).2.lock.holder = some motor := by
  unfold startMotion
  rw [if_neg hneeds]
  refine ⟨?_, hcoupled.mode.mp hbusy⟩
  by_contra hmoving
  exact hneeds (hmode.mp hmoving)

/-- A command that takes a free lock needs it. -/
theorem startMotion_engages {motor : ι} {s : Locked ι K δ} {needsLock : Prop} [Decidable needsLock]
    {set : StepperChannel K δ → StepperChannel K δ} (hfree : s.lock.holder = none)
    (htaken : (startMotion motor s needsLock set).2.lock.holder ≠ none) : needsLock := by
  by_contra hneeds
  rw [startMotion, if_neg hneeds] at htaken
  exact htaken hfree

/-- An accepted relative move whose new target is the present position. -/
def MoveStepsInPlace (c : StepperChannel K δ) (delta : ℤ) : Prop :=
  c.enabled = true ∧ abs64 (wrap64 (c.target + delta)) ≤ c.cfg.maxPositionSteps ∧
    wrap64 (c.target + delta) = c.position

/-- An accepted move to the present position without a hold. -/
def MoveToStepsInPlace (c : StepperChannel K δ) (absolute : ℤ) (hold : K) : Prop :=
  c.enabled = true ∧ abs64 absolute ≤ c.cfg.maxPositionSteps ∧ absolute = c.position ∧ hold = 0

/-- An accepted command to go home given at home. -/
def HomeInPlace (c : StepperChannel K δ) : Prop := c.enabled = true ∧ c.position = 0

/-- An accepted relative move that leaves the present position. -/
def MoveStepsEngages (c : StepperChannel K δ) (delta : ℤ) : Prop :=
  c.enabled = true ∧ abs64 (wrap64 (c.target + delta)) ≤ c.cfg.maxPositionSteps ∧
    wrap64 (c.target + delta) ≠ c.position

/-- An accepted move that leaves the present position or holds there. -/
def MoveToStepsEngages (c : StepperChannel K δ) (absolute : ℤ) (hold : K) : Prop :=
  c.enabled = true ∧ abs64 absolute ≤ c.cfg.maxPositionSteps ∧ 0 ≤ hold ∧
    (c.position ≠ absolute ∨ hold > 0)

/-- An accepted command to go home given away from home. -/
def HomeEngages (c : StepperChannel K δ) : Prop := c.enabled = true ∧ c.position ≠ 0

/-- An accepted pull. -/
def ArmPullCycleEngages (c : StepperChannel K δ) : Prop :=
  c.enabled = true ∧ abs64 (c.cfg.pullTravelFullSteps * c.microstep) ≤ c.cfg.maxPositionSteps

/-- A relative move takes a free lock only if it is accepted and leaves the position. -/
theorem moveSteps_engages {motor : ι} {s : Locked ι K δ} {delta : ℤ} (hfree : s.lock.holder = none)
    (htaken : (moveSteps motor s delta).2.lock.holder ≠ none) : MoveStepsEngages s.channel delta := by
  unfold moveSteps at htaken
  split at htaken
  · exact absurd hfree htaken
  case isFalse henabled =>
    dsimp only at htaken
    split at htaken
    · exact absurd hfree htaken
    case isFalse hlimit =>
      exact ⟨by simpa using henabled, not_lt.mp hlimit, startMotion_engages hfree htaken⟩

/-- A move to a position takes a free lock only if it is accepted and moves or holds. -/
theorem moveToSteps_engages {motor : ι} {s : Locked ι K δ} {absolute : ℤ} {hold : K}
    (hfree : s.lock.holder = none) (htaken : (moveToSteps motor s absolute hold).2.lock.holder ≠ none) :
    MoveToStepsEngages s.channel absolute hold := by
  unfold moveToSteps at htaken
  split at htaken
  · exact absurd hfree htaken
  case isFalse henabled =>
    split at htaken
    · exact absurd hfree htaken
    case isFalse hlimit =>
      split at htaken
      · exact absurd hfree htaken
      case isFalse hhold =>
        exact ⟨by simpa using henabled, not_lt.mp hlimit, not_lt.mp hhold,
          startMotion_engages hfree htaken⟩

/-- Going home takes a free lock only if it is accepted away from home. -/
theorem home_engages {motor : ι} {s : Locked ι K δ} (hfree : s.lock.holder = none)
    (htaken : (home motor s).2.lock.holder ≠ none) : HomeEngages s.channel := by
  unfold home at htaken
  split at htaken
  · exact absurd hfree htaken
  case isFalse henabled =>
    exact ⟨by simpa using henabled, startMotion_engages hfree htaken⟩

/-- Arming a pull takes a free lock only if it is accepted. -/
theorem armPullCycle_engages {motor : ι} {s : Locked ι K δ} (hfree : s.lock.holder = none)
    (htaken : (armPullCycle motor s).2.lock.holder ≠ none) : ArmPullCycleEngages s.channel := by
  unfold armPullCycle at htaken
  split at htaken
  · exact absurd hfree htaken
  case isFalse henabled =>
    split at htaken
    · exact absurd hfree htaken
    case h_2 taken hacquire =>
      dsimp only at htaken
      split at htaken
      case isTrue hlimit =>
        -- the refused pull has given the lock back
        have hgiven : (taken.release motor).holder = none := by
          rw [MotionLock.release_holder, if_pos (MotionLock.tryAcquire_eq_true hacquire).2]
        exact absurd hgiven htaken
      case isFalse hlimit =>
        exact ⟨by simpa using henabled, not_lt.mp hlimit⟩

/-- A relative move keeps the coupling unless it ends a busy channel's motion in place. -/
theorem moveSteps_keeps (motor : ι) (s : Locked ι K δ) (delta : ℤ)
    (h : MoveStepsInPlace s.channel delta → s.channel.mode = .idle) :
    Keeps motor s (moveSteps motor s delta).2 := by
  unfold moveSteps
  split
  · exact Yields.keeps (Yields.of_stance rfl ⟨rfl, rfl⟩)
  case isFalse henabled =>
    dsimp only
    split
    · exact Yields.keeps (Yields.of_stance rfl ⟨rfl, rfl⟩)
    case isFalse hlimit =>
      refine startMotion_keeps (fun _ => rfl) (fun c hc => ?_) fun hneeds => ?_
      · by_cases hp : c.position = wrap64 (s.channel.target + delta)
        · simp [hp, ← hc]
        · simp [hp, ← hc, Ne.symm hp]
      · exact h ⟨by simpa using henabled, not_lt.mp hlimit, not_not.mp hneeds⟩

/-- A relative move in place strands a busy channel's lock. -/
theorem moveSteps_strands {motor : ι} {s : Locked ι K δ} {delta : ℤ} (hcoupled : Coupled motor s)
    (h : MoveStepsInPlace s.channel delta) (hbusy : s.channel.mode ≠ .idle) :
    (moveSteps motor s delta).2.channel.mode = .idle ∧
      (moveSteps motor s delta).2.lock.holder = some motor := by
  obtain ⟨henabled, hlimit, htarget⟩ := h
  unfold moveSteps
  rw [if_neg (by simp [henabled]), if_neg (not_lt.mpr hlimit)]
  exact startMotion_strands hcoupled (by simp [htarget]) (by simp [htarget]) hbusy

/-- A move to a position keeps the coupling unless it ends a busy channel's motion in place. -/
theorem moveToSteps_keeps (motor : ι) (s : Locked ι K δ) (absolute : ℤ) (hold : K)
    (h : MoveToStepsInPlace s.channel absolute hold → s.channel.mode = .idle) :
    Keeps motor s (moveToSteps motor s absolute hold).2 := by
  unfold moveToSteps
  split
  · exact Yields.keeps (Yields.of_stance rfl ⟨rfl, rfl⟩)
  case isFalse henabled =>
    split
    · exact Yields.keeps (Yields.of_stance rfl ⟨rfl, rfl⟩)
    case isFalse hlimit =>
      split
      · exact Yields.keeps (Yields.of_stance rfl ⟨rfl, rfl⟩)
      case isFalse hhold =>
        refine startMotion_keeps (fun _ => rfl) (fun c hc => ?_) fun hneeds => ?_
        · by_cases hp : c.position = absolute
          · by_cases hpos : hold > 0
            · simp [hp, hpos]
            · simp [hp, hpos, ← hc]
          · simp [hp, ← hc]
        · obtain ⟨hp, hzero⟩ := not_or.mp hneeds
          exact h ⟨by simpa using henabled, not_lt.mp hlimit, (not_not.mp hp).symm,
            le_antisymm (not_lt.mp hzero) (not_lt.mp hhold)⟩

/-- A move to the present position without a hold strands a busy channel's lock. -/
theorem moveToSteps_strands {motor : ι} {s : Locked ι K δ} {absolute : ℤ} {hold : K}
    (hcoupled : Coupled motor s) (h : MoveToStepsInPlace s.channel absolute hold)
    (hbusy : s.channel.mode ≠ .idle) :
    (moveToSteps motor s absolute hold).2.channel.mode = .idle ∧
      (moveToSteps motor s absolute hold).2.lock.holder = some motor := by
  obtain ⟨henabled, hlimit, hposition, rfl⟩ := h
  unfold moveToSteps
  rw [if_neg (by simp [henabled]), if_neg (not_lt.mpr hlimit), if_neg (lt_irrefl _)]
  exact startMotion_strands hcoupled (by simp [hposition]) (by simp [hposition]) hbusy

/-- Going home keeps the coupling unless it ends a busy channel's motion in place. -/
theorem home_keeps (motor : ι) (s : Locked ι K δ) (h : HomeInPlace s.channel → s.channel.mode = .idle) :
    Keeps motor s (home motor s).2 := by
  unfold home
  split
  · exact Yields.keeps (Yields.of_stance rfl ⟨rfl, rfl⟩)
  case isFalse henabled =>
    refine startMotion_keeps (fun _ => rfl) (fun c hc => ?_) fun hneeds => ?_
    · by_cases hp : c.position = 0
      · simp [hp, ← hc]
      · simp [hp, ← hc]
    · exact h ⟨by simpa using henabled, not_not.mp hneeds⟩

/-- Going home at home strands a busy channel's lock. -/
theorem home_strands {motor : ι} {s : Locked ι K δ} (hcoupled : Coupled motor s)
    (h : HomeInPlace s.channel) (hbusy : s.channel.mode ≠ .idle) :
    (home motor s).2.channel.mode = .idle ∧ (home motor s).2.lock.holder = some motor := by
  obtain ⟨henabled, hposition⟩ := h
  unfold home
  rw [if_neg (by simp [henabled])]
  exact startMotion_strands hcoupled (by simp [hposition]) (by simp [hposition]) hbusy

/-- Relabelling a reply changes no mode, flag or lock. -/
theorem relabel_same (source : String) (reply : Except String Unit × Locked ι K δ) :
    (relabel source reply).2.lock = reply.2.lock ∧
      SameStance reply.2.channel (relabel source reply).2.channel := by
  unfold relabel
  split
  · exact ⟨rfl, rfl, rfl⟩
  · exact ⟨rfl, rfl, rfl⟩

/-- Arming a pull takes the lock of an idle channel or changes nothing. -/
theorem armPullCycle_keeps (motor : ι) (s : Locked ι K δ) : Keeps motor s (armPullCycle motor s).2 := by
  unfold armPullCycle
  split
  · exact Yields.keeps (Yields.of_stance rfl ⟨rfl, rfl⟩)
  split
  · exact Yields.keeps (Yields.of_stance rfl ⟨rfl, rfl⟩)
  case h_2 taken hacquire =>
    obtain ⟨hfree, htaken⟩ := MotionLock.tryAcquire_eq_true hacquire
    dsimp only
    split
    · intro h
      have hidle : s.channel.mode = .idle := by
        by_contra hbusy
        simp [h.mode.mp hbusy] at hfree
      have hgiven : (taken.release motor).holder = none := by
        rw [MotionLock.release_holder, if_pos htaken]
      refine ⟨⟨?_, ?_⟩, fun other _ => ?_⟩
      · simp [releaseLockIfHeld, hgiven]
      · simp [releaseLockIfHeld, hgiven, hidle]
      · simp [releaseLockIfHeld, hgiven, hfree]
    · intro h
      refine ⟨⟨?_, ?_⟩, fun other hne => ?_⟩
      · simp [htaken]
      · simp only [htaken, iff_true]
        split
        · simp
        · simp
      · simp [htaken, hfree, hne.symm]

end Locked

end Coatheal.Motion
