import Coatheal.Motion.BendWatch
import Coatheal.Motion.Pulses
import Coatheal.Motion.Travel

/-!
# A motor at rest is at its target

A relative move adds to the stored target, so every way in which a motion ends
has to bring target and position together. All of them do, except a disable of a
motor that is not at its target: it leaves the old target behind, and the next
relative move starts from there.
-/

set_option linter.unusedSectionVars false

namespace Coatheal.Motion

open Coatheal.Library

variable {ι δ : Type*} [DecidableEq ι]

/-- A motor that rests or holds is at its target. -/
def OnTarget (c : StepperChannel ℚ δ) : Prop := c.mode = .idle ∨ c.mode = .holding → c.target = c.position

/-- A motor on its way to a place without a hold, at rest there, or at rest after a safety stop. -/
def Settling (goal : ℤ) (c : StepperChannel ℚ δ) : Prop :=
  c.mode = .moving ∧ c.target = goal ∧ c.holdRemainingS ≤ 0 ∨
    c.mode = .idle ∧ (c.position = goal ∨ endedBySafetyAbort c = true)

/-- A channel with the same setting at the same place is on its target as before. -/
theorem OnTarget.same {c after : StepperChannel ℚ δ} (h : OnTarget c) (hsame : SameSetting c after)
    (hposition : after.position = c.position) : OnTarget after := by
  unfold OnTarget at h ⊢
  rw [hsame.mode, hsame.target, hposition]
  exact h

/-- A channel on the same course is on its target as before. -/
theorem OnTarget.course {c after : StepperChannel ℚ δ} (h : OnTarget c) (hsame : SameCourse c after) :
    OnTarget after := by
  unfold OnTarget at h ⊢
  rw [hsame.mode, hsame.target, hsame.position]
  exact h

/-- Giving the lock back leaves a motor on target. -/
theorem OnTarget.release (motor : ι) {s : Locked ι ℚ δ} (h : OnTarget s.channel) :
    OnTarget (s.releaseLockIfHeld motor).channel :=
  h.course (Locked.releaseLockIfHeld_course motor s)

/-- A motor on its way is not asked to be at its target. -/
theorem onTarget_of_busy {c : StepperChannel ℚ δ} (h : c.mode = .moving ∨ c.mode = .retracting) : OnTarget c := by
  intro hrest
  rcases h with h | h
  all_goals
    rw [h] at hrest
    rcases hrest with hrest | hrest
    all_goals cases hrest

/-- A safety stop tells of itself. -/
theorem Halted.aborted {c after : StepperChannel ℚ δ} (h : Halted c after) : endedBySafetyAbort after = true :=
  endedBySafetyAbort_of_source h.source

/-- A channel with the same setting at the same place settles as before. -/
theorem Settling.same {goal : ℤ} {c after : StepperChannel ℚ δ} (h : Settling goal c)
    (hsame : SameSetting c after) (hposition : after.position = c.position) : Settling goal after := by
  unfold Settling endedBySafetyAbort at h ⊢
  rw [hsame.mode, hsame.target, hsame.hold, hposition, hsame.source]
  exact h

/-- A channel on the same way settles as before. -/
theorem Settling.way {goal : ℤ} {c after : StepperChannel ℚ δ} (h : Settling goal c) (hsame : SameWay c after) :
    Settling goal after := by
  unfold Settling endedBySafetyAbort at h ⊢
  rw [hsame.mode, hsame.target, hsame.hold, hsame.position, hsame.source]
  exact h

/-- A halted channel has settled. -/
theorem Halted.settling {goal : ℤ} {c after : StepperChannel ℚ δ} (h : Halted c after) : Settling goal after :=
  Or.inr ⟨h.mode, Or.inr h.aborted⟩

namespace Locked

open StepperChannel

/-- The end of a leg at the target is on target. -/
theorem legEnded_onTarget {c after : StepperChannel ℚ δ} (hsame : SameSetting (legEnded c) after)
    (hplace : after.position = c.target) : OnTarget after := by
  have htarget : after.target = c.target := by
    refine hsame.target.trans ?_
    unfold legEnded
    split
    · rfl
    split
    · rfl
    · rfl
  exact fun _ => htarget.trans hplace.symm

/-- A move without a hold has settled at the end of its leg. -/
theorem legEnded_settling {goal : ℤ} {c after : StepperChannel ℚ δ} (hmode : c.mode = .moving)
    (hhold : c.holdRemainingS ≤ 0) (hsame : SameSetting (legEnded c) after) (hplace : after.position = goal) :
    Settling goal after := by
  refine Or.inr ⟨?_, Or.inl hplace⟩
  rw [hsame.mode]
  unfold legEnded
  rw [if_neg fun h => absurd hhold (not_le.mpr h.2), hmode, if_neg (by decide)]

/-- The end of a hold is on target. -/
theorem tickHolding_onTarget (motor : ι) (s : Locked ι ℚ δ) (dt : ℚ) (hmode : s.channel.mode = .holding)
    (h : OnTarget s.channel) : OnTarget (tickHolding motor s dt).channel := by
  have hplace : s.channel.target = s.channel.position := h (Or.inr hmode)
  unfold tickHolding
  dsimp only
  split
  · split
    · split
      · exact onTarget_of_busy (Or.inr rfl)
      case isFalse hback =>
        exact OnTarget.release motor fun _ => (not_not.mp hback).symm
    · exact OnTarget.release motor fun _ => hplace
  · exact fun _ => hplace

/-- What the mode asks for leaves the motor on target when it rests. -/
theorem tickMotion_onTarget (hal : StepperDriver ℚ δ) (sqrt : ℚ → ℚ) (motor : ι) (s : Locked ι ℚ δ) (dt : ℚ)
    (h : OnTarget s.channel) : OnTarget (tickMotion hal sqrt motor s dt).channel := by
  have hway (hmode : s.channel.mode = .moving ∨ s.channel.mode = .retracting) :
      OnTarget (if s.channel.position = s.channel.target then
        endLeg motor ⟨s.lock, { s.channel with moving := false, currentStepHz := 0 }⟩
        else if s.channel.cfg.usePulseThread then ⟨s.lock, { s.channel with moving := true }⟩
        else tickPulses hal sqrt motor s dt).channel := by
    split
    case isTrue hplace =>
      obtain ⟨hended, hnone⟩ := endLeg_setting hal motor
        ⟨s.lock, { s.channel with moving := false, currentStepHz := 0 }⟩ true
      exact legEnded_onTarget hended (hnone.place.trans hplace)
    · split
      · exact onTarget_of_busy hmode
      · obtain ⟨-, -, -, -, ⟨-, hsame⟩ | ⟨hplace, hended⟩ | hstopped⟩ := tickPulses_cases hal sqrt motor s dt
        · exact onTarget_of_busy (hmode.imp hsame.mode.trans hsame.mode.trans)
        · exact legEnded_onTarget hended hplace
        · exact fun _ => hstopped.target
  unfold tickMotion
  split
  case h_1 hmode => exact tickHolding_onTarget motor s dt hmode h
  case h_2 hmode => exact fun _ => h (Or.inl hmode)
  case h_3 hmode => exact hway (Or.inl hmode)
  case h_4 hmode => exact hway (Or.inr hmode)

/-- A tick leaves a motor that rests on target. -/
theorem tick_onTarget (hal : StepperDriver ℚ δ) (sqrt : ℚ → ℚ) (motor : ι) (s : Locked ι ℚ δ) (dt : ℚ) (now : ℤ)
    (h : OnTarget s.channel) : OnTarget (tick hal sqrt motor s dt now).channel := by
  by_cases hdt : 0 < dt
  · obtain ⟨hstopped, -⟩ | ⟨cool, hsame, hnone, htick⟩ := tick_cases hal sqrt motor s now hdt true
    · exact fun _ => hstopped.target
    · rw [htick]
      exact tickMotion_onTarget hal sqrt motor cool dt (h.same hsame hnone.place)
  · unfold tick
    rwa [if_pos (not_lt.mp hdt)]

/-- A tick settles a motor on its way to a place. -/
theorem tick_settling {goal : ℤ} (hal : StepperDriver ℚ δ) (sqrt : ℚ → ℚ) (motor : ι) (s : Locked ι ℚ δ) (dt : ℚ)
    (now : ℤ) (h : Settling goal s.channel) : Settling goal (tick hal sqrt motor s dt now).channel := by
  by_cases hdt : 0 < dt
  · obtain ⟨hstopped, -⟩ | ⟨cool, hsame, hnone, htick⟩ := tick_cases hal sqrt motor s now hdt true
    · exact hstopped.settling
    · rw [htick]
      have h := h.same hsame hnone.place
      unfold tickMotion
      rcases h with ⟨hmode, htarget, hhold⟩ | ⟨hmode, hrest⟩
      · rw [hmode]
        dsimp only
        split
        case isTrue hplace =>
          obtain ⟨hended, hnone⟩ := endLeg_setting hal motor
            ⟨cool.lock, { cool.channel with moving := false, currentStepHz := 0 }⟩ true
          exact legEnded_settling (c := { cool.channel with moving := false, currentStepHz := 0 }) hmode hhold
            hended ((hnone.place.trans hplace).trans htarget)
        · split
          · exact Or.inl ⟨hmode, htarget, hhold⟩
          · obtain ⟨-, -, -, -, ⟨-, hsame⟩ | ⟨hplace, hended⟩ | hstopped⟩ :=
              tickPulses_cases hal sqrt motor cool dt
            · refine Or.inl ⟨hsame.mode.trans hmode, hsame.target.trans htarget, ?_⟩
              rw [hsame.hold]
              exact hhold
            · exact legEnded_settling (c := resting cool.channel) hmode hhold hended (hplace.trans htarget)
            · exact hstopped.settling
      · rw [hmode]
        exact Or.inr ⟨hmode, hrest⟩
  · unfold tick
    rwa [if_pos (not_lt.mp hdt)]

/-- A command that starts a move, and sets the channel on target if it is to rest, leaves it on target. -/
theorem startMotion_onTarget {motor : ι} {s : Locked ι ℚ δ} {needsLock : Prop} [Decidable needsLock]
    {set : StepperChannel ℚ δ → StepperChannel ℚ δ} (h : OnTarget s.channel) (hset : ∀ c, OnTarget (set c)) :
    OnTarget (startMotion motor s needsLock set).2.channel := by
  obtain ⟨-, c, -, hafter⟩ | ⟨-, hafter⟩ := startMotion_cases motor s needsLock set
  · rw [hafter]
    exact hset c
  · rw [hafter]
    exact h

/-- A channel that moves whenever it is not at its target is on target when it rests. -/
theorem onTarget_of_mode {c : StepperChannel ℚ δ} {rest : Mode}
    (hmode : c.mode = if c.position ≠ c.target then .moving else rest) : OnTarget c := by
  by_cases hplace : c.position = c.target
  · exact fun _ => hplace.symm
  · rw [if_pos hplace] at hmode
    exact onTarget_of_busy (Or.inl hmode)

/-- A relative move leaves a motor that rests on target. -/
theorem moveSteps_onTarget {motor : ι} {s : Locked ι ℚ δ} (delta : ℤ) (h : OnTarget s.channel) :
    OnTarget (s.moveSteps motor delta).2.channel := by
  unfold moveSteps
  split
  · exact h
  dsimp only
  split
  · exact h
  · exact startMotion_onTarget h fun c => onTarget_of_mode rfl

/-- So does a move to a position. -/
theorem moveToSteps_onTarget {motor : ι} {s : Locked ι ℚ δ} (absolute : ℤ) (hold : ℚ) (h : OnTarget s.channel) :
    OnTarget (s.moveToSteps motor absolute hold).2.channel := by
  unfold moveToSteps
  split
  · exact h
  split
  · exact h
  split
  · exact h
  · exact startMotion_onTarget h fun c => onTarget_of_mode rfl

/-- So does going home. -/
theorem home_onTarget {motor : ι} {s : Locked ι ℚ δ} (h : OnTarget s.channel) :
    OnTarget (s.home motor).2.channel := by
  unfold home
  split
  · exact h
  · exact startMotion_onTarget h fun c => onTarget_of_mode rfl

/-- So does another name for the source. -/
theorem relabel_onTarget (source : String) {reply : Except String Unit × Locked ι ℚ δ}
    (h : OnTarget reply.2.channel) : OnTarget (relabel source reply).2.channel :=
  h.course (relabel_course source reply).2

/-- So does a pull. -/
theorem armPullCycle_onTarget {motor : ι} {s : Locked ι ℚ δ} (h : OnTarget s.channel) :
    OnTarget (s.armPullCycle motor).2.channel := by
  unfold armPullCycle
  split
  · exact h
  split
  · exact h
  dsimp only
  split
  · exact OnTarget.release motor h
  · exact onTarget_of_mode rfl

/-- Switching the power stage leaves a motor on target, unless it is switched off elsewhere. -/
theorem setEnabled_onTarget (hal : StepperDriver ℚ δ) {motor : ι} {s : Locked ι ℚ δ} {enable : Bool}
    (h : OnTarget s.channel)
    (hok : enable = false → s.channel.driver.isSome = true → s.channel.target = s.channel.position) :
    OnTarget (s.setEnabled hal motor enable).2.channel := by
  unfold setEnabled
  split
  · exact h
  case h_2 d hdriver =>
    dsimp only
    split
    case isTrue hoff =>
      have hplace := hok (by simpa using hoff) (by rw [hdriver]; rfl)
      refine OnTarget.release motor fun _ => ?_
      split
      · exact hplace
      · exact hplace
    split
    · exact h
    · exact h

/-- Switching a motor off leaves it idle with the target it had. -/
theorem setEnabled_leaves (hal : StepperDriver ℚ δ) (motor : ι) (s : Locked ι ℚ δ)
    (hdriver : s.channel.driver.isSome = true) :
    (s.setEnabled hal motor false).2.channel.mode = .idle ∧
      (s.setEnabled hal motor false).2.channel.target = s.channel.target ∧
      (s.setEnabled hal motor false).2.channel.position = s.channel.position := by
  unfold setEnabled
  split
  case h_1 hnone =>
    rw [hnone] at hdriver
    cases hdriver
  · dsimp only
    rw [if_pos Bool.false_ne_true]
    split
    · exact ⟨(releaseLockIfHeld_course motor _).mode, (releaseLockIfHeld_course motor _).target,
        (releaseLockIfHeld_course motor _).position⟩
    · exact ⟨(releaseLockIfHeld_course motor _).mode, (releaseLockIfHeld_course motor _).target,
        (releaseLockIfHeld_course motor _).position⟩

/-- A change of the divisor rescales target and position alike. -/
theorem setMicrostep_onTarget (hal : StepperDriver ℚ δ) {c : StepperChannel ℚ δ} {divisor : ℤ}
    (h : OnTarget c) : OnTarget (c.setMicrostep hal divisor).2 := by
  by_cases haccepted : (c.setMicrostep hal divisor).1.isOk = true
  · refine OnTarget.course (fun hrest => ?_) (setMicrostep_accepted haccepted)
    exact congrArg (c.rescale divisor) (h hrest)
  · exact h.course (setMicrostep_refused haccepted)

end Locked

namespace Operation

/-- The operation switches the motor off while it is not at its target. -/
def LeavesTarget (c : StepperChannel ℚ δ) : Operation ℚ δ → Prop
  | .setEnabled enable => enable = false ∧ c.driver.isSome = true ∧ c.target ≠ c.position
  | _ => False

/-- Whether a target is left behind can be decided. -/
instance (c : StepperChannel ℚ δ) : (operation : Operation ℚ δ) → Decidable (operation.LeavesTarget c)
  | .setEnabled _ => inferInstanceAs (Decidable (_ ∧ _ ∧ _ ≠ _))
  | .moveSteps _ | .moveToSteps _ _ | .moveMillimeters _ | .moveToMillimeters _ _ | .rotate _ | .home | .stop
  | .setPositionZero | .acknowledgeStepLoss | .setSpeed _ | .setAccel _ | .setRunCurrent _ | .setMicrostep _
  | .armPullCycle | .tick _ _ | .pulse _ | .driverChange _ => inferInstanceAs (Decidable False)

/-- Every operation that leaves no target behind leaves a motor that rests on target. -/
theorem apply_onTarget (platform : Platform ℚ δ) (motor : ι) (s : Locked ι ℚ δ) (operation : Operation ℚ δ)
    (h : OnTarget s.channel) (hok : ¬ operation.LeavesTarget s.channel) :
    OnTarget (operation.apply platform motor s).channel := by
  cases operation with
  | moveSteps delta => exact Locked.moveSteps_onTarget delta h
  | moveToSteps absolute hold => exact Locked.moveToSteps_onTarget absolute hold h
  | moveMillimeters deltaMm =>
    simp only [apply, Locked.moveMillimeters]
    split
    · exact h
    · exact Locked.relabel_onTarget _ (Locked.moveSteps_onTarget _ h)
  | moveToMillimeters absoluteMm hold =>
    simp only [apply, Locked.moveToMillimeters]
    split
    · exact h
    · exact Locked.relabel_onTarget _ (Locked.moveToSteps_onTarget _ hold h)
  | rotate revolutions =>
    simp only [apply, Locked.rotate]
    split
    · exact h
    · exact Locked.moveSteps_onTarget _ h
  | home => exact Locked.home_onTarget h
  | stop => exact OnTarget.release motor fun _ => rfl
  | setPositionZero => exact OnTarget.release motor fun _ => rfl
  | acknowledgeStepLoss => exact h
  | setSpeed fullStepHz => exact h.course (Locked.setSpeed_course _ _)
  | setAccel accel => exact h.course (Locked.setAccel_course _ _ _)
  | setRunCurrent aRms => exact h.course (Locked.setRunCurrent_course _ _ _)
  | setMicrostep divisor => exact Locked.setMicrostep_onTarget platform.hal h
  | setEnabled enable =>
    refine Locked.setEnabled_onTarget platform.hal h fun hoff hdriver => ?_
    by_contra haway
    exact hok ⟨hoff, hdriver, haway⟩
  | armPullCycle => exact Locked.armPullCycle_onTarget h
  | tick dt now => exact Locked.tick_onTarget platform.hal platform.sqrt motor s dt now h
  | pulse elapsed =>
    obtain hsame | ⟨hmode, -, -, -, hsame | hhalted⟩ :=
      Locked.pulse_cases platform.hal platform.sqrt motor s elapsed
    · simp only [apply, hsame]
      exact h
    · exact onTarget_of_busy (hmode.imp hsame.mode.trans hsame.mode.trans)
    · exact fun _ => hhalted.target
  | driverChange after => exact h

/-- The operation leaves a move alone: time passes, or something other than the move is set. -/
def leavesMove : Operation ℚ δ → Bool
  | .acknowledgeStepLoss | .setSpeed _ | .setAccel _ | .setRunCurrent _ | .tick _ _ | .pulse _
  | .driverChange _ => true
  | .setEnabled enable => enable
  | _ => false

/-- An operation that leaves a move alone lets it settle. -/
theorem apply_settling {goal : ℤ} (platform : Platform ℚ δ) (motor : ι) (s : Locked ι ℚ δ)
    {operation : Operation ℚ δ} (h : Settling goal s.channel) (hok : operation.leavesMove = true) :
    Settling goal (operation.apply platform motor s).channel := by
  cases operation with
  | acknowledgeStepLoss => exact h
  | setSpeed fullStepHz => exact h.way (Locked.setSpeed_way _ _)
  | setAccel accel => exact h.way (Locked.setAccel_way _ _ _)
  | setRunCurrent aRms => exact h.way (Locked.setRunCurrent_way _ _ _)
  | setEnabled enable =>
    have henable : enable = true := hok
    simp only [apply, Locked.setEnabled, henable]
    split
    · exact h
    · rw [if_neg (by decide)]
      split
      · exact h
      · exact h
  | tick dt now => exact Locked.tick_settling platform.hal platform.sqrt motor s dt now h
  | pulse elapsed =>
    obtain hsame | ⟨hmode, -, -, -, hsame | hhalted⟩ :=
      Locked.pulse_cases platform.hal platform.sqrt motor s elapsed
    · simp only [apply, hsame]
      exact h
    · rcases h with ⟨hmoving, hgoal, hnone⟩ | ⟨hidle, -⟩
      · exact Or.inl ⟨hsame.mode.trans hmoving, hsame.target.trans hgoal, hsame.hold.trans_le hnone⟩
      · rw [hidle] at hmode
        rcases hmode with hmode | hmode
        all_goals cases hmode
    · exact hhalted.settling
  | driverChange after => exact h
  | _ => cases hok

end Operation

/-- A relative move that is accepted on target goes that far from where the motor stands. -/
theorem Locked.moveSteps_settling {motor : ι} {s : Locked ι ℚ δ} {delta : ℤ}
    (hplace : s.channel.target = s.channel.position) (hfits : Fits (s.channel.position + delta))
    (haccepted : (s.moveSteps motor delta).1.isOk = true) :
    Settling (s.channel.position + delta) (s.moveSteps motor delta).2.channel := by
  have hexact : wrap64 (s.channel.target + delta) = s.channel.position + delta := by
    rw [hplace]
    exact wrap64_of_mem (abs_lt.mp hfits).1.le (abs_lt.mp hfits).2
  unfold moveSteps at haccepted ⊢
  rw [hexact] at haccepted ⊢
  split at haccepted
  · cases haccepted
  case isFalse henabled =>
    rw [if_neg henabled]
    dsimp only at haccepted ⊢
    split at haccepted
    · cases haccepted
    case isFalse hlimit =>
      rw [if_neg hlimit]
      obtain ⟨-, c, hposition, hafter⟩ | ⟨hrefused, -⟩ := startMotion_cases motor s
        (s.channel.position + delta ≠ s.channel.position) fun c => { c with
          target := s.channel.position + delta
          holdRemainingS := 0
          retractTarget := c.position
          retractAfterHold := false
          mode := if c.position ≠ s.channel.position + delta then .moving else .idle
          moving := decide (c.position ≠ s.channel.position + delta)
          lastSource := "cmd:MOVE" }
      · rw [hafter]
        by_cases haway : c.position = s.channel.position + delta
        · exact Or.inr ⟨if_neg (not_not.mpr haway), Or.inl haway⟩
        · exact Or.inl ⟨if_pos haway, rfl, le_rfl⟩
      · rw [hrefused] at haccepted
        cases haccepted

namespace Rig

/-- A relative move of a resting motor that is accepted and left alone ends that many steps from where the
motor stood, unless a safety stop ends it. -/
def RelativeMovesExact (platform : Platform ℚ δ) (rig : Rig ι ℚ δ) (motor : ι) : Prop :=
  (rig.channels motor).mode = .idle → ∀ delta inputs, Fits ((rig.channels motor).position + delta) →
    ((rig.locked motor).moveSteps motor delta).1.isOk = true →
    (∀ input ∈ inputs, input.1 = motor → input.2.leavesMove = true) →
    let after := (run (step platform) (rig.step platform (motor, .moveSteps delta)) inputs).channels motor
    after.mode = .idle → endedBySafetyAbort after = false →
      after.position = (rig.channels motor).position + delta

/-- A motor at rest is at its target, and its relative moves are exact. -/
def RestsOnTarget (platform : Platform ℚ δ) (rig : Rig ι ℚ δ) : Prop :=
  ∀ motor, ((rig.channels motor).mode = .idle → (rig.channels motor).target = (rig.channels motor).position) ∧
    rig.RelativeMovesExact platform motor

/-- A run that leaves the move of one motor alone lets it settle. -/
theorem settling_run (platform : Platform ℚ δ) {rig : Rig ι ℚ δ} {motor : ι} {goal : ℤ}
    {inputs : List (ι × Operation ℚ δ)} (h : Settling goal (rig.channels motor))
    (hok : ∀ input ∈ inputs, input.1 = motor → input.2.leavesMove = true) :
    Settling goal ((run (step platform) rig inputs).channels motor) := by
  have hmeets : Meets (step platform) (fun _ input => input.1 = motor → input.2.leavesMove = true) rig inputs :=
    meets_of_forall (fun input hinput _ => hok input hinput) rig
  refine @run_invariant _ _ _ _ (fun rig => Settling goal (rig.channels motor)) (fun rig input h hinput => ?_)
    _ _ h hmeets
  by_cases hmotor : motor = input.1
  · subst hmotor
    simp only [step, Function.update_self]
    exact Operation.apply_settling platform input.1 (rig.locked input.1) h (hinput rfl)
  · simpa only [step, Function.update_of_ne hmotor] using h

/-- Where every motor that rests or holds is on target, relative moves are exact. -/
theorem relativeMovesExact_of_onTarget (platform : Platform ℚ δ) {rig : Rig ι ℚ δ} {motor : ι}
    (h : OnTarget (rig.channels motor)) : rig.RelativeMovesExact platform motor := by
  intro hidle delta inputs hfits haccepted hok after hrest hunaborted
  have hsent : Settling ((rig.channels motor).position + delta)
      ((rig.step platform (motor, .moveSteps delta)).channels motor) := by
    simp only [step, Function.update_self]
    exact Locked.moveSteps_settling (s := rig.locked motor) (h (Or.inl hidle)) hfits haccepted
  rcases settling_run platform hsent hok with ⟨hmoving, -⟩ | ⟨-, hplace | haborted⟩
  · rw [hrest] at hmoving
    cases hmoving
  · exact hplace
  · rw [hunaborted] at haborted
    cases haborted

/-- In every state of a run the motors at rest are at their targets and their relative moves are exact,
exactly when no step of the run switches a motor off that is not at its target. -/
theorem restsOnTarget_iff (platform : Platform ℚ δ) (cfg : ι → ChannelConfig ℚ) (driver : ι → Option δ)
    (inputs : List (ι × Operation ℚ δ)) :
    Holds (step platform) (RestsOnTarget platform) (start platform cfg driver) inputs ↔
      Meets (step platform) (fun rig input => ¬ input.2.LeavesTarget (rig.channels input.1))
        (start platform cfg driver) inputs := by
  refine @holds_iff_meets _ _ _ _ (fun rig => ∀ motor, OnTarget (rig.channels motor)) _
    (fun rig input h hok motor => ?_) (fun rig h motor => ?_) (fun rig input h hbad hgood => ?_) _ _
    fun motor _ => rfl
  · by_cases hmotor : motor = input.1
    · subst hmotor
      simp only [step, Function.update_self]
      exact Operation.apply_onTarget platform input.1 (rig.locked input.1) input.2 (h input.1) hok
    · simpa only [step, Function.update_of_ne hmotor] using h motor
  · exact ⟨fun hidle => h motor (Or.inl hidle), relativeMovesExact_of_onTarget platform (h motor)⟩
  · obtain ⟨motor, operation⟩ := input
    cases operation with
    | setEnabled enable =>
      obtain ⟨hoff, hdriver, haway⟩ := not_not.mp hbad
      dsimp only at hoff hdriver haway
      obtain ⟨hidle, htarget, hposition⟩ := Locked.setEnabled_leaves platform.hal motor
        (rig.locked motor) hdriver
      have hrest := (hgood motor).1
      simp only [step, Function.update_self, Operation.apply, hoff] at hrest
      exact haway ((htarget.symm.trans (hrest hidle)).trans hposition)
    | _ => exact hbad id

/-- Ten microsteps forward, and the motor is switched off before the first of them. -/
def moveAndDisable : List (Fin 2 × Operation ℚ SimulatedStepperDriver) :=
  [(benchMotor, .setEnabled true), (benchMotor, .moveSteps 10), (benchMotor, .setEnabled false)]

/-- After the move and the disable the motor is idle at zero with its target at ten, and once it is
switched on again a move by five is accepted and goes to fifteen. -/
theorem moveAndDisable_leaves :
    ¬ Holds (step SimulatedStepperDriver.platform) (RestsOnTarget SimulatedStepperDriver.platform) bench
        moveAndDisable ∧
      ((run (step SimulatedStepperDriver.platform) bench
        (moveAndDisable ++ [(benchMotor, .setEnabled true), (benchMotor, .moveSteps 5)])).channels
          benchMotor).target = 15 := by
  refine ⟨fun h => ?_, by decide +kernel⟩
  have hrest := (h.last benchMotor).1 (by decide +kernel)
  exact absurd hrest (by decide +kernel)

end Rig

end Coatheal.Motion
