import Coatheal.Motion.Rig

/-!
# What a refused motion command leaves behind

A motion command is refused when the channel is disabled, a value is invalid,
the target is over the limit or another motor has the lock. Every command but
one checks before it assigns. The pull cycle writes where to retract to before
it looks at its own target, and gives only the lock back when it refuses that.
-/

set_option linter.unusedSectionVars false

namespace Coatheal.Motion

open Coatheal.Library

variable {ι K δ : Type*} [DecidableEq ι] [Field K] [LinearOrder K] [FloorRing K]

namespace Locked

/-- The motion of the channel and the shared lock are what they were. -/
structure SameMotion (s after : Locked ι K δ) : Prop where
  position : after.channel.position = s.channel.position
  target : after.channel.target = s.channel.target
  mode : after.channel.mode = s.channel.mode
  retractTarget : after.channel.retractTarget = s.channel.retractTarget
  retractAfterHold : after.channel.retractAfterHold = s.channel.retractAfterHold
  stepHz : after.channel.stepHz = s.channel.stepHz
  currentStepHz : after.channel.currentStepHz = s.channel.currentStepHz
  lock : after.lock = s.lock

/-- A reply that refuses comes with the state as it was. -/
def Traceless (s : Locked ι K δ) (reply : Except String Unit × Locked ι K δ) : Prop :=
  reply.1.isOk = false → reply.2 = s

/-- The very same state has the same motion. -/
theorem SameMotion.of_eq {s after : Locked ι K δ} (h : after = s) : SameMotion s after := by
  subst h
  exact ⟨rfl, rfl, rfl, rfl, rfl, rfl, rfl, rfl⟩

/-- A refusal with the state it was asked in is traceless. -/
theorem Traceless.refused (s : Locked ι K δ) (reason : String) : Traceless s (.error reason, s) :=
  fun _ => rfl

/-- A lock that is not given leaves the channel and the lock as they were. -/
theorem acquireLockForMotion_traceless (motor : ι) (s : Locked ι K δ) :
    Traceless s (s.acquireLockForMotion motor) := by
  unfold acquireLockForMotion
  split
  · exact fun _ => rfl
  · split
    · exact Traceless.refused s _
    · exact fun h => absurd h (by simp [Except.isOk, Except.toBool])

/-- The common end of the commands is traceless when it refuses: the lock was not given. -/
theorem startMotion_traceless (motor : ι) (s : Locked ι K δ) (needsLock : Prop) [Decidable needsLock]
    (set : StepperChannel K δ → StepperChannel K δ) :
    Traceless s (startMotion motor s needsLock set) := by
  unfold startMotion
  split
  · have hacquire := acquireLockForMotion_traceless motor s
    split
    case h_1 reason refused hrefused =>
      rw [hrefused] at hacquire
      exact fun h => hacquire h
    case h_2 => exact fun h => absurd h (by simp [Except.isOk, Except.toBool])
  · exact fun h => absurd h (by simp [Except.isOk, Except.toBool])

/-- A refused relative move leaves no trace. -/
theorem moveSteps_traceless (motor : ι) (s : Locked ι K δ) (delta : ℤ) :
    Traceless s (s.moveSteps motor delta) := by
  unfold moveSteps
  split
  · exact Traceless.refused s _
  · dsimp only
    split
    · exact Traceless.refused s _
    · exact startMotion_traceless motor s _ _

/-- A refused move to a position leaves no trace. -/
theorem moveToSteps_traceless (motor : ι) (s : Locked ι K δ) (absolute : ℤ) (hold : K) :
    Traceless s (s.moveToSteps motor absolute hold) := by
  unfold moveToSteps
  split
  · exact Traceless.refused s _
  · split
    · exact Traceless.refused s _
    · split
      · exact Traceless.refused s _
      · exact startMotion_traceless motor s _ _

/-- Naming the source of an accepted move adds nothing to a refused one. -/
theorem relabel_traceless {s : Locked ι K δ} {reply : Except String Unit × Locked ι K δ}
    (h : Traceless s reply) (source : String) : Traceless s (relabel source reply) := by
  obtain ⟨answer, after⟩ := reply
  cases answer with
  | error reason => exact h
  | ok accepted => exact fun hrefused => absurd hrefused (by simp [relabel, Except.isOk, Except.toBool])

/-- A refused move by a distance leaves no trace. -/
theorem moveMillimeters_traceless (motor : ι) (s : Locked ι K δ) (deltaMm : Option K) :
    Traceless s (s.moveMillimeters motor deltaMm) := by
  unfold moveMillimeters
  split
  · exact Traceless.refused s _
  · exact relabel_traceless (moveSteps_traceless motor s _) _

/-- A refused move to a distance leaves no trace. -/
theorem moveToMillimeters_traceless (motor : ι) (s : Locked ι K δ) (absoluteMm : Option K) (hold : K) :
    Traceless s (s.moveToMillimeters motor absoluteMm hold) := by
  unfold moveToMillimeters
  split
  · exact Traceless.refused s _
  · exact relabel_traceless (moveToSteps_traceless motor s _ hold) _

/-- A refused turn leaves no trace. -/
theorem rotate_traceless (motor : ι) (s : Locked ι K δ) (revolutions : K) :
    Traceless s (s.rotate motor revolutions) := by
  unfold rotate
  split
  · exact Traceless.refused s _
  · exact moveSteps_traceless motor s _

/-- A refused move home leaves no trace. -/
theorem home_traceless (motor : ι) (s : Locked ι K δ) : Traceless s (s.home motor) := by
  unfold home
  split
  · exact Traceless.refused s _
  · exact startMotion_traceless motor s _ _

/-- The pull is longer than the channel may travel. -/
def PullTooLong (c : StepperChannel K δ) : Prop :=
  abs64 (c.cfg.pullTravelFullSteps * c.microstep) > c.cfg.maxPositionSteps

/-- A pull cycle is refused after it has written where to retract to: the channel is enabled, the
lock is free, and the pull is too long. -/
def PullRefusedLate (s : Locked ι K δ) : Prop :=
  s.channel.enabled = true ∧ s.lock.holder = none ∧ PullTooLong s.channel

/-- A pull cycle refused before it writes anything leaves no trace. -/
theorem armPullCycle_traceless (motor : ι) (s : Locked ι K δ) (h : ¬ PullRefusedLate s) :
    Traceless s (s.armPullCycle motor) := by
  unfold armPullCycle
  split
  case isTrue => exact Traceless.refused s _
  case isFalse henabled =>
    split
    case h_1 => exact Traceless.refused s _
    case h_2 taken htaken =>
      have hfits : ¬ PullTooLong s.channel := fun hlong =>
        h ⟨not_not.mp henabled, (MotionLock.tryAcquire_eq_true htaken).1, hlong⟩
      rw [PullTooLong] at hfits
      simp only [if_neg hfits]
      exact fun hrefused => absurd hrefused (by simp [Except.isOk, Except.toBool])

/-- A pull cycle refused late leaves the channel set to retract to zero, and nothing else of the
motion or the lock changed. -/
theorem armPullCycle_late (motor : ι) (s : Locked ι K δ) (h : PullRefusedLate s) :
    s.armPullCycle motor = (.error "pull target exceeds max_position_steps",
      ⟨s.lock, { s.channel with lockHeld := false, retractTarget := 0, retractAfterHold := true }⟩) := by
  obtain ⟨henabled, hfree, hlong⟩ := h
  have hlock : s.lock = ⟨none⟩ := by
    cases hs : s.lock with
    | mk holder => rw [hs] at hfree; exact congrArg MotionLock.mk hfree
  rw [PullTooLong] at hlong
  simp [armPullCycle, henabled, hlock, MotionLock.tryAcquire, hlong, releaseLockIfHeld,
    MotionLock.release]

end Locked

namespace Operation

/-- What a motion command answers, with the state it leaves; nothing else is refused here. -/
def motionReply (motor : ι) (s : Locked ι K δ) : Operation K δ → Except String Unit × Locked ι K δ
  | .moveSteps delta => s.moveSteps motor delta
  | .moveToSteps absolute hold => s.moveToSteps motor absolute hold
  | .moveMillimeters deltaMm => s.moveMillimeters motor deltaMm
  | .moveToMillimeters absoluteMm hold => s.moveToMillimeters motor absoluteMm hold
  | .rotate revolutions => s.rotate motor revolutions
  | .home => s.home motor
  | .armPullCycle => s.armPullCycle motor
  | _ => (.ok (), s)

/-- A motion command leaves the state that carrying it out leaves. -/
theorem motionReply_apply (platform : Platform K δ) (motor : ι) (s : Locked ι K δ)
    {operation : Operation K δ} (h : operation.isMotion = true) :
    (operation.motionReply motor s).2 = operation.apply platform motor s := by
  cases operation with
  | moveSteps | moveToSteps | moveMillimeters | moveToMillimeters | rotate | home | armPullCycle => rfl
  | _ => cases h

/-- The command is a pull cycle that is refused late, on a channel that was not set to retract to
zero after a hold before. -/
def LeavesTrace (s : Locked ι K δ) (operation : Operation K δ) : Prop :=
  operation = .armPullCycle ∧ Locked.PullRefusedLate s ∧
    ¬ (s.channel.retractTarget = 0 ∧ s.channel.retractAfterHold = true)

/-- Every motion command but a pull cycle refused late leaves the whole state as it was when it is
refused. -/
theorem motionReply_traceless (motor : ι) (s : Locked ι K δ) (operation : Operation K δ)
    (h : ¬ (operation = .armPullCycle ∧ Locked.PullRefusedLate s)) :
    Locked.Traceless s (operation.motionReply motor s) := by
  cases operation with
  | moveSteps delta => exact Locked.moveSteps_traceless motor s delta
  | moveToSteps absolute hold => exact Locked.moveToSteps_traceless motor s absolute hold
  | moveMillimeters deltaMm => exact Locked.moveMillimeters_traceless motor s deltaMm
  | moveToMillimeters absoluteMm hold => exact Locked.moveToMillimeters_traceless motor s absoluteMm hold
  | rotate revolutions => exact Locked.rotate_traceless motor s revolutions
  | home => exact Locked.home_traceless motor s
  | armPullCycle => exact Locked.armPullCycle_traceless motor s fun hlate => h ⟨rfl, hlate⟩
  | _ => exact fun _ => rfl

/-- A pull cycle refused late has the motion of before exactly when the channel was already set to
retract to zero after a hold. -/
theorem armPullCycle_sameMotion_iff (motor : ι) (s : Locked ι K δ) (h : Locked.PullRefusedLate s) :
    Locked.SameMotion s (s.armPullCycle motor).2 ↔
      s.channel.retractTarget = 0 ∧ s.channel.retractAfterHold = true := by
  rw [Locked.armPullCycle_late motor s h]
  constructor
  · exact fun hsame => ⟨hsame.retractTarget.symm, hsame.retractAfterHold.symm⟩
  · rintro ⟨htarget, hafter⟩
    exact ⟨rfl, rfl, rfl, htarget.symm, hafter.symm, rfl, rfl, rfl⟩

/-- A refused motion command leaves the motion and the lock as they were exactly when it is not a
pull cycle refused late on a channel that was set to retract elsewhere or not at all. -/
theorem refusal_sameMotion_iff (motor : ι) (s : Locked ι K δ) (operation : Operation K δ) :
    ((operation.motionReply motor s).1.isOk = false →
        Locked.SameMotion s (operation.motionReply motor s).2) ↔ ¬ operation.LeavesTrace s := by
  by_cases hlate : operation = .armPullCycle ∧ Locked.PullRefusedLate s
  · obtain ⟨rfl, hlate⟩ := hlate
    have hrefused : ((armPullCycle : Operation K δ).motionReply motor s).1.isOk = false := by
      rw [motionReply, Locked.armPullCycle_late motor s hlate]
      rfl
    have hsame := armPullCycle_sameMotion_iff motor s hlate
    constructor
    · exact fun h hleaves => hleaves.2.2 (hsame.mp (h hrefused))
    · exact fun h _ => hsame.mpr (not_not.mp fun hother => h ⟨rfl, hlate, hother⟩)
  · constructor
    · exact fun _ hleaves => hlate ⟨hleaves.1, hleaves.2.1⟩
    · exact fun _ hrefused => .of_eq (motionReply_traceless motor s operation hlate hrefused)

/-- The first motor of the bench with a limit of 20000 microsteps, which the pull respects at the
configured microstep, after a command has set the finest microstep. -/
def finelyDivided : Locked (Fin 2) ℚ SimulatedStepperDriver :=
  (setMicrostep 256).apply SimulatedStepperDriver.platform Rig.benchMotor
    ⟨.free, StepperChannel.new SimulatedStepperDriver.hal
      { Rig.benchConfig Rig.benchMotor with maxPositionSteps := 20000, enableOnBoot := true }
      (Rig.benchDriver Rig.benchMotor)⟩

/-- The refused pull leaves the finely divided motor set to retract after its next hold. -/
theorem finelyDivided_leavesTrace :
    ((armPullCycle : Operation ℚ SimulatedStepperDriver).motionReply Rig.benchMotor finelyDivided).1.isOk =
        false ∧
      ¬ Locked.SameMotion finelyDivided
        ((armPullCycle : Operation ℚ SimulatedStepperDriver).motionReply Rig.benchMotor finelyDivided).2 := by
  refine ⟨by decide +kernel, fun hsame => ?_⟩
  have hafter : (((armPullCycle : Operation ℚ SimulatedStepperDriver).motionReply Rig.benchMotor
      finelyDivided).2.channel.retractAfterHold = true) := by
    decide +kernel
  have hbefore : finelyDivided.channel.retractAfterHold = false := by decide +kernel
  rw [hsame.retractAfterHold, hbefore] at hafter
  exact Bool.noConfusion hafter

end Operation

end Coatheal.Motion
